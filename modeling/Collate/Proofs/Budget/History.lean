import Mathlib
import Collate.Proofs.Budget

/-!
# Budgets over their history

A budget is asked to reserve and to take back, in any order (`Request`).  After any history its
counters are those of the reservations that were granted and not given back since (`Audited`), and
what it answers next is the exact arithmetic of unbounded numbers (`Exact`): a reservation is
granted when it fits under the capacity, and what is taken back was in use.
-/

namespace Collate.Budget

/-- What is asked of a budget, through whichever of its clones: they share one ledger. -/
inductive Request where
  | reserve (bytes : Nat) (tag : String)
  /-- The reservation with a number is dropped. -/
  | release (id : Nat)
  deriving DecidableEq, Repr

/-- The budget after a request. -/
def serve (b : Budget) : Request → Budget
  | .reserve bytes tag =>
    match b.reserve bytes tag with
    | .ok (_, b') => b'
    | .error _ => b
  | .release id => b.release id

/-- The budget after a history of requests. -/
def serveAll (b : Budget) (requests : List Request) : Budget := requests.foldl serve b

/-- A reservation that a history granted, and did not give back since. -/
def Kept (b : Budget) (requests : List Request) (id : Nat) (r : Reservation) : Prop :=
  ∃ front bytes tag back b', requests = front ++ .reserve bytes tag :: back ∧
    (b.serveAll front).reserve bytes tag = .ok (id, b') ∧ r = ⟨.ofNat bytes, tag⟩ ∧
    .release id ∉ back

/-- The counters of a budget are those of the history since it was fresh. -/
structure Audited (capacity : UInt64) (requests : List Request) (b : Budget) : Prop where
  capacity_eq : b.ledger.capacity = capacity
  distinct : (b.outstanding.map Prod.fst).Nodup
  outstanding (id : Nat) (r : Reservation) :
    (id, r) ∈ b.outstanding ↔ (ofCapacity capacity).Kept requests id r
  used : b.ledger.used.toNat = (b.outstanding.map fun e => e.2.bytes.toNat).sum
  used_le : b.ledger.used ≤ capacity
  live : b.ledger.live = b.outstanding.length
  peak : IsGreatest
    {n | ∃ front, front <+: requests ∧
      n = ((ofCapacity capacity).serveAll front).ledger.used.toNat} b.ledger.peak.toNat

/-- The words of a budget count like unbounded numbers. -/
structure Exact (b : Budget) : Prop where
  granted_iff (bytes : Nat) (tag : String) :
    (∃ id b', b.reserve bytes tag = .ok (id, b')) ↔
      b.ledger.used.toNat + bytes ≤ b.ledger.capacity.toNat
  granted (bytes : Nat) (tag : String) (id : Nat) (b' : Budget)
    (h : b.reserve bytes tag = .ok (id, b')) :
    b'.outstanding = (id, ⟨.ofNat bytes, tag⟩) :: b.outstanding ∧
      (UInt64.ofNat bytes).toNat = bytes ∧
      b'.ledger.used.toNat = b.ledger.used.toNat + bytes ∧
      b'.ledger.live = b.ledger.live + 1
  refused (bytes : Nat) (tag : String)
    (h : b.ledger.capacity.toNat < b.ledger.used.toNat + bytes) :
    b.reserve bytes tag = .error ⟨tag, bytes, b.ledger.capacity, b.ledger.used⟩ ∧
      b.serve (.reserve bytes tag) = b
  granted_zero (tag : String) : ∃ id b', b.reserve 0 tag = .ok (id, b')
  released (id : Nat) (r : Reservation) (h : (id, r) ∈ b.outstanding) :
    r.bytes.toNat ≤ b.ledger.used.toNat ∧ 1 ≤ b.ledger.live ∧
      (b.release id).ledger.used.toNat + r.bytes.toNat = b.ledger.used.toNat ∧
      (b.release id).ledger.live + 1 = b.ledger.live

variable {b b' : Budget} {id bytes : Nat} {tag : String} {r : Reservation}
  {requests : List Request} {request : Request} {capacity : UInt64}

/-! ### One request -/

theorem serve_of_granted (h : b.reserve bytes tag = .ok (id, b')) :
    b.serve (.reserve bytes tag) = b' := by
  rw [serve, h]

theorem serve_of_refused {e : BudgetError} (h : b.reserve bytes tag = .error e) :
    b.serve (.reserve bytes tag) = b := by
  rw [serve, h]

theorem moves_serve (b : Budget) (request : Request) : Moves b (b.serve request) := by
  cases request with
  | reserve bytes tag =>
    cases h : b.reserve bytes tag with
    | ok granted => exact serve_of_granted h ▸ .reserve h
    | error e => exact (serve_of_refused h).symm ▸ .stay b
  | release id => exact .release b id

/-- What is outstanding after a request: what was, unless it is given back, and what is granted. -/
theorem mem_outstanding_serve (b : Budget) (request : Request) (id : Nat) (r : Reservation) :
    (id, r) ∈ (b.serve request).outstanding ↔
      ((id, r) ∈ b.outstanding ∧ request ≠ .release id) ∨
      ∃ bytes tag b', request = .reserve bytes tag ∧ b.reserve bytes tag = .ok (id, b') ∧
        r = ⟨.ofNat bytes, tag⟩ := by
  cases request with
  | reserve bytes tag =>
    cases h : b.reserve bytes tag with
    | ok granted =>
      obtain ⟨-, hid, hb'⟩ := reserve_eq_ok_iff.1 h
      rw [serve_of_granted h, hb', grant, List.mem_cons, ← hid]
      constructor
      · rintro (heq | hmem)
        · obtain ⟨rfl, rfl⟩ := Prod.ext_iff.1 heq
          exact .inr ⟨bytes, tag, granted.2, rfl, h, rfl⟩
        · exact .inl ⟨hmem, Request.noConfusion⟩
      · rintro (⟨hmem, -⟩ | ⟨_, _, b', heq, hgranted, rfl⟩)
        · exact .inr hmem
        · obtain ⟨rfl, rfl⟩ := Request.reserve.inj heq
          rw [h, Except.ok.injEq] at hgranted
          exact .inl (by rw [hgranted])
    | error e =>
      rw [serve_of_refused h]
      constructor
      · exact fun hmem => .inl ⟨hmem, Request.noConfusion⟩
      · rintro (⟨hmem, -⟩ | ⟨_, _, b', heq, hgranted, -⟩)
        · exact hmem
        · obtain ⟨rfl, rfl⟩ := Request.reserve.inj heq
          cases h.symm.trans hgranted
  | release i =>
    have hne : Request.release i ≠ .release id ↔ id ≠ i := by
      rw [ne_eq, Request.release.injEq, eq_comm]
    simp only [serve, outstanding_release, List.mem_filter, decide_eq_true_eq, hne, reduceCtorEq,
      false_and, exists_false, or_false]

/-! ### Histories -/

theorem serveAll_concat (b : Budget) (requests : List Request) (request : Request) :
    b.serveAll (requests ++ [request]) = (b.serveAll requests).serve request :=
  List.foldl_concat ..

/-- What every move of a budget keeps holds after every history. -/
theorem serveAll_induction {P : Budget → Prop} (hb : P b)
    (hmove : ∀ {b₁ b₂ : Budget}, Moves b₁ b₂ → P b₁ → P b₂) (requests : List Request) :
    P (b.serveAll requests) := by
  induction requests using List.reverseRecOn with
  | nil => exact hb
  | append_singleton requests request ih =>
    rw [serveAll_concat]
    exact hmove (moves_serve _ _) ih

theorem balanced_serveAll (capacity : UInt64) (requests : List Request) :
    ((ofCapacity capacity).serveAll requests).Balanced :=
  serveAll_induction (balanced_ofCapacity capacity) Moves.balanced requests

theorem capacity_serveAll (b : Budget) (requests : List Request) :
    (b.serveAll requests).ledger.capacity = b.ledger.capacity :=
  serveAll_induction (P := fun b₁ => b₁.ledger.capacity = b.ledger.capacity) rfl
    (fun hmoves => hmoves.capacity.trans) requests

/-- One more request gives its reservation back or leaves it, and may grant another one. -/
theorem kept_concat : b.Kept (requests ++ [request]) id r ↔
    (b.Kept requests id r ∧ request ≠ .release id) ∨
    ∃ bytes tag b', request = .reserve bytes tag ∧
      (b.serveAll requests).reserve bytes tag = .ok (id, b') ∧ r = ⟨.ofNat bytes, tag⟩ := by
  constructor
  · rintro ⟨front, bytes, tag, back, b', heq, hgranted, rfl, hback⟩
    obtain rfl | ⟨back, last, rfl⟩ := List.eq_nil_or_concat' back
    · obtain ⟨rfl, hlast⟩ := List.append_inj' heq rfl
      exact .inr ⟨bytes, tag, b', List.cons.inj hlast |>.1, hgranted, rfl⟩
    · rw [← List.cons_append, ← List.append_assoc] at heq
      obtain ⟨rfl, hlast⟩ := List.append_inj' heq rfl
      obtain rfl := (List.cons.inj hlast).1
      rw [List.mem_append, not_or, List.mem_singleton] at hback
      exact .inl ⟨⟨front, bytes, tag, back, b', rfl, hgranted, rfl, hback.1⟩, Ne.symm hback.2⟩
  · rintro (⟨⟨front, bytes, tag, back, b', rfl, hgranted, rfl, hback⟩, hlast⟩ |
      ⟨bytes, tag, b', rfl, hgranted, rfl⟩)
    · refine ⟨front, bytes, tag, back ++ [request], b', by simp, hgranted, rfl, ?_⟩
      rw [List.mem_append, not_or, List.mem_singleton]
      exact ⟨hback, Ne.symm hlast⟩
    · exact ⟨requests, bytes, tag, [], b', rfl, hgranted, rfl, List.not_mem_nil⟩

/-- What a fresh budget has outstanding is what its history keeps. -/
theorem mem_outstanding_serveAll (capacity : UInt64) (requests : List Request) (id : Nat)
    (r : Reservation) : (id, r) ∈ ((ofCapacity capacity).serveAll requests).outstanding ↔
      (ofCapacity capacity).Kept requests id r := by
  induction requests using List.reverseRecOn with
  | nil =>
    refine iff_of_false List.not_mem_nil ?_
    rintro ⟨front, bytes, tag, back, b', heq, -⟩
    exact List.append_ne_nil_of_right_ne_nil front (List.cons_ne_nil _ back) heq.symm
  | append_singleton requests request ih =>
    rw [serveAll_concat, mem_outstanding_serve, kept_concat, ih]

/-- The most bytes that were in use after a part of a history. -/
theorem isGreatest_peak (capacity : UInt64) (requests : List Request) : IsGreatest
    {n | ∃ front, front <+: requests ∧
      n = ((ofCapacity capacity).serveAll front).ledger.used.toNat}
    ((ofCapacity capacity).serveAll requests).ledger.peak.toNat := by
  induction requests using List.reverseRecOn with
  | nil =>
    refine ⟨⟨[], List.prefix_rfl, rfl⟩, ?_⟩
    rintro n ⟨front, hfront, rfl⟩
    rw [List.prefix_nil.1 hfront]
    exact Nat.le_refl 0
  | append_singleton requests request ih =>
    obtain ⟨⟨front, hfront, hpeak⟩, hle⟩ := ih
    have hmoves := (moves_serve _ request).peak (balanced_serveAll capacity requests)
    rw [← serveAll_concat] at hmoves
    have hmax := congrArg UInt64.toNat hmoves
    rw [toNat_max] at hmax
    constructor
    · obtain h | h := Nat.le_total
        ((ofCapacity capacity).serveAll requests).ledger.peak.toNat
        ((ofCapacity capacity).serveAll (requests ++ [request])).ledger.used.toNat
      · exact ⟨_, List.prefix_rfl, by rw [hmax, Nat.max_eq_right h]⟩
      · refine ⟨front, hfront.trans (List.prefix_append ..), ?_⟩
        rw [hmax, Nat.max_eq_left h, hpeak]
    · rintro n ⟨front, hfront, rfl⟩
      rw [hmax]
      obtain rfl | hfront := List.prefix_concat_iff.1 hfront
      · exact Nat.le_max_right ..
      · exact (hle ⟨front, hfront, rfl⟩).trans (Nat.le_max_left ..)

/-! ### The next request -/

/-- What a balanced budget takes back was in use. -/
theorem Balanced.released (h : b.Balanced) (hr : (id, r) ∈ b.outstanding) :
    r.bytes.toNat ≤ b.ledger.used.toNat ∧ 1 ≤ b.ledger.live ∧
      (b.release id).ledger.used.toNat + r.bytes.toNat = b.ledger.used.toNat ∧
      (b.release id).ledger.live + 1 = b.ledger.live := by
  obtain ⟨hused, hlive⟩ := h.counters_eq (h.get?_eq_some_iff.2 hr)
  have hrest := (h.release id).1
  rw [← hrest.used] at hused
  rw [← hrest.live] at hlive
  omega

theorem Balanced.exact (h : b.Balanced) : b.Exact where
  granted_iff bytes tag :=
    ⟨fun ⟨_, _, hgranted⟩ => (reserve_eq_ok_iff.1 hgranted).1, exists_reserve tag⟩
  granted bytes tag id b' hgranted := by
    obtain ⟨hroom, rfl, rfl⟩ := reserve_eq_ok_iff.1 hgranted
    exact ⟨rfl, (toNat_grant hroom).1, (toNat_grant hroom).2, rfl⟩
  refused bytes tag hfull := by
    have hrefused : b.reserve bytes tag =
        .error ⟨tag, bytes, b.ledger.capacity, b.ledger.used⟩ := by
      rw [reserve, Ledger.reserve_eq, if_neg (Nat.not_le.2 hfull)]
    exact ⟨hrefused, serve_of_refused hrefused⟩
  granted_zero tag := exists_reserve tag (UInt64.le_iff_toNat_le.1 h.used_le_capacity)
  released _ _ := h.released

/-- **The ledger of a budget.**  After every history of reservations and of taking back, the
counters of a budget are those of what is outstanding, and the next request is counted exactly. -/
theorem audited_serveAll (capacity : UInt64) (requests : List Request) :
    Audited capacity requests ((ofCapacity capacity).serveAll requests) ∧
      Exact ((ofCapacity capacity).serveAll requests) := by
  have h := balanced_serveAll capacity requests
  have hcapacity := capacity_serveAll (ofCapacity capacity) requests
  refine ⟨?_, h.exact⟩
  exact {
    capacity_eq := hcapacity
    distinct := h.distinct
    outstanding := mem_outstanding_serveAll capacity requests
    used := h.used
    used_le := h.used_le_capacity.trans_eq hcapacity
    live := h.live
    peak := isGreatest_peak capacity requests }

end Collate.Budget
