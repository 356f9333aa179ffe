import Mathlib
import Collate.Budget

/-!
# The ledger of a budget

The counters of a budget say what is outstanding: `Budget.Balanced` has it that the bytes in use are
those of the reservations that are alive, that these have different numbers, and that neither the
capacity nor the peak is exceeded.  A budget `Moves` by reserving and by taking back; both keep it
balanced, and the peak is then the greatest number of bytes that was in use (`Moves.peak`).
-/

namespace Collate

/-! ### Words -/

theorem toNat_add_ofNat {a : UInt64} {n : Nat} (h : a.toNat + n < UInt64.size) :
    (UInt64.ofNat n).toNat = n ∧ (a + .ofNat n).toNat = a.toNat + n := by
  have hsize : UInt64.size = 2 ^ 64 := rfl
  have hn : (UInt64.ofNat n).toNat = n := by
    rw [UInt64.toNat_ofNat', Nat.mod_eq_of_lt (by omega)]
  exact ⟨hn, by rw [UInt64.toNat_add, hn, Nat.mod_eq_of_lt (by omega)]⟩

namespace Ledger

variable {l : Ledger} {bytes : Nat}

/-- What fits under the capacity is held by a word. -/
theorem lt_size_of_le (h : l.used.toNat + bytes ≤ l.capacity.toNat) :
    l.used.toNat + bytes < UInt64.size :=
  Nat.lt_of_le_of_lt h l.capacity.toNat_lt

theorem take?_eq (l : Ledger) (bytes : Nat) : l.take? bytes =
    if l.used.toNat + bytes ≤ l.capacity.toNat then some (l.used + .ofNat bytes) else none := by
  rw [take?, checkedAdd]
  by_cases hword : l.used.toNat + bytes < UInt64.size
  · rw [if_pos hword, Option.filter_some, ← (toNat_add_ofNat hword).2]
    simp only [decide_eq_true_eq, UInt64.le_iff_toNat_le]
  · rw [if_neg hword, if_neg fun h => hword (lt_size_of_le h)]
    rfl

theorem reserve_eq (l : Ledger) (bytes : Nat) (tag : String) : l.reserve bytes tag =
    if l.used.toNat + bytes ≤ l.capacity.toNat then
      .ok (⟨.ofNat bytes, tag⟩, { l with
        used := l.used + .ofNat bytes
        peak := max l.peak (l.used + .ofNat bytes)
        live := l.live + 1 })
    else .error ⟨tag, bytes, l.capacity, l.used⟩ := by
  rw [reserve, take?_eq]
  split_ifs <;> rfl

end Ledger

namespace Budget

variable {b b' : Budget} {id bytes : Nat} {tag : String} {r : Reservation}

/-! ### Single operations -/

/-- The budget after it has reserved bytes. -/
def grant (b : Budget) (bytes : Nat) (tag : String) : Budget where
  ledger := { b.ledger with
    used := b.ledger.used + .ofNat bytes
    peak := max b.ledger.peak (b.ledger.used + .ofNat bytes)
    live := b.ledger.live + 1 }
  outstanding := (b.next, ⟨.ofNat bytes, tag⟩) :: b.outstanding
  next := b.next + 1

/-- A budget reserves what fits under its capacity. -/
theorem reserve_eq_ok_iff : b.reserve bytes tag = .ok (id, b') ↔
    b.ledger.used.toNat + bytes ≤ b.ledger.capacity.toNat ∧ id = b.next ∧
      b' = b.grant bytes tag := by
  rw [reserve, Ledger.reserve_eq]
  split_ifs with h
  · simp only [Except.ok.injEq, Prod.mk.injEq, h, true_and]
    exact and_congr eq_comm eq_comm
  · simp only [h, false_and]

/-- A budget reserves what it has room for. -/
theorem exists_reserve (tag : String)
    (h : b.ledger.used.toNat + bytes ≤ b.ledger.capacity.toNat) :
    ∃ reservation b', b.reserve bytes tag = .ok (reservation, b') :=
  ⟨_, _, reserve_eq_ok_iff.2 ⟨h, rfl, rfl⟩⟩

/-- The reservations that are left without one of them. -/
theorem outstanding_release (b : Budget) (id : Nat) :
    (b.release id).outstanding = b.outstanding.filter (·.1 ≠ id) := by
  unfold release
  cases h : b.get? id with
  | some r => rfl
  | none =>
    refine (List.filter_eq_self.2 fun e he => ?_).symm
    have hne : id ≠ e.1 := by simpa using List.lookup_eq_none_iff.1 h e he
    exact decide_eq_true hne.symm

theorem next_release (b : Budget) (id : Nat) : (b.release id).next = b.next := by
  unfold release
  split <;> rfl

theorem get?_grant (b : Budget) (bytes : Nat) (tag : String) (i : Nat) :
    (b.grant bytes tag).get? i = if i = b.next then some ⟨.ofNat bytes, tag⟩ else b.get? i := by
  rw [get?, grant, List.lookup_cons]
  by_cases h : i = b.next
  · rw [if_pos h, beq_iff_eq.2 h]
  · rw [if_neg h, beq_eq_false_iff_ne.2 h]
    rfl

theorem get?_release (b : Budget) (id i : Nat) :
    (b.release id).get? i = if i = id then none else b.get? i := by
  rw [get?, outstanding_release, get?]
  induction b.outstanding with
  | nil => simp
  | cons e rest ih =>
    by_cases he : e.1 = id
    · rw [List.filter_cons_of_neg (by simpa using he), ih, List.lookup_cons]
      by_cases hi : i = id
      · rw [if_pos hi, if_pos hi]
      · rw [beq_eq_false_iff_ne.2 (he ▸ hi)]
    · rw [List.filter_cons_of_pos (by simpa using he), List.lookup_cons, List.lookup_cons, ih]
      by_cases hi : i = e.1
      · rw [beq_iff_eq.2 hi]
        exact (if_neg (hi ▸ he)).symm
      · rw [beq_eq_false_iff_ne.2 hi]

/-! ### Balanced budgets -/

/-- The counters agree with the reservations that are alive. -/
structure Balanced (b : Budget) : Prop where
  distinct : (b.outstanding.map Prod.fst).Nodup
  given : ∀ e ∈ b.outstanding, e.1 < b.next
  used : b.ledger.used.toNat = (b.outstanding.map fun e => e.2.bytes.toNat).sum
  live : b.ledger.live = b.outstanding.length
  used_le_capacity : b.ledger.used ≤ b.ledger.capacity
  used_le_peak : b.ledger.used ≤ b.ledger.peak

theorem balanced_ofCapacity (capacity : UInt64) : (ofCapacity capacity).Balanced where
  distinct := List.nodup_nil
  given := List.forall_mem_nil _
  used := rfl
  live := rfl
  used_le_capacity := UInt64.le_iff_toNat_le.2 (Nat.zero_le _)
  used_le_peak := UInt64.le_refl _

/-- What fits under the capacity is added without wrapping around. -/
theorem toNat_grant (h : b.ledger.used.toNat + bytes ≤ b.ledger.capacity.toNat) :
    (UInt64.ofNat bytes).toNat = bytes ∧
      (b.ledger.used + .ofNat bytes).toNat = b.ledger.used.toNat + bytes :=
  toNat_add_ofNat (Ledger.lt_size_of_le h)

theorem max_cases (m n : UInt64) : (m ≤ n ∧ max m n = n) ∨ (n ≤ m ∧ max m n = m) := by
  by_cases h : m ≤ n
  · exact .inl ⟨h, if_pos h⟩
  · exact .inr ⟨UInt64.le_of_lt (UInt64.not_le.1 h), if_neg h⟩

theorem toNat_max (m n : UInt64) : (max m n).toNat = max m.toNat n.toNat := by
  obtain ⟨hle, hmax⟩ | ⟨hle, hmax⟩ := max_cases m n
  · rw [hmax, Nat.max_eq_right (UInt64.le_iff_toNat_le.1 hle)]
  · rw [hmax, Nat.max_eq_left (UInt64.le_iff_toNat_le.1 hle)]

namespace Balanced

/-- In a balanced budget the reservations are found under their numbers. -/
theorem get?_eq_some_iff (h : b.Balanced) : b.get? id = some r ↔ (id, r) ∈ b.outstanding := by
  obtain ⟨ledger, outstanding, next⟩ := b
  have hdistinct : (outstanding.map Prod.fst).Nodup := h.distinct
  show outstanding.lookup id = some r ↔ (id, r) ∈ outstanding
  clear h
  induction outstanding with
  | nil => simp
  | cons e rest ih =>
    rw [List.map_cons, List.nodup_cons] at hdistinct
    rw [List.lookup_cons, List.mem_cons]
    by_cases he : id = e.1
    · have hrest : (e.1, r) ∉ rest := fun hm => hdistinct.1 (List.mem_map.2 ⟨_, hm, rfl⟩)
      rw [beq_iff_eq.2 he, he]
      simp [hrest, Prod.ext_iff, eq_comm]
    · rw [beq_eq_false_iff_ne.2 he, ih hdistinct.2]
      simp [he, Prod.ext_iff]

theorem grant (h : b.Balanced) (hroom : b.ledger.used.toNat + bytes ≤ b.ledger.capacity.toNat)
    (tag : String) : (b.grant bytes tag).Balanced := by
  obtain ⟨hbytes, hused⟩ := toNat_grant hroom
  refine ⟨?_, ?_, ?_, congrArg (· + 1) h.live, ?_, ?_⟩
  · refine List.nodup_cons.2 ⟨fun hm => ?_, h.distinct⟩
    obtain ⟨e, he, hnext⟩ := List.mem_map.1 hm
    exact (h.given e he).ne hnext
  · exact List.forall_mem_cons.2
      ⟨Nat.lt_succ_self _, fun e he => (h.given e he).trans (Nat.lt_succ_self _)⟩
  · show (b.ledger.used + .ofNat bytes).toNat = _
    rw [Budget.grant, List.map_cons, List.sum_cons, hused, hbytes, h.used, Nat.add_comm]
  · exact UInt64.le_iff_toNat_le.2 (hused.trans_le hroom)
  · show b.ledger.used + .ofNat bytes ≤ max b.ledger.peak (b.ledger.used + .ofNat bytes)
    obtain ⟨-, hmax⟩ | ⟨hle, hmax⟩ := max_cases b.ledger.peak (b.ledger.used + .ofNat bytes)
    · rw [hmax]
      exact UInt64.le_refl _
    · rw [hmax]
      exact hle

/-- A reservation that is alive is one of those outstanding, beside the others. -/
theorem perm_outstanding (h : b.Balanced) (hget : b.get? id = some r) :
    b.outstanding.Perm ((id, r) :: (b.release id).outstanding) := by
  have hm := h.get?_eq_some_iff.1 hget
  have hothers : b.outstanding.filter (· != (id, r)) = (b.release id).outstanding := by
    rw [outstanding_release]
    refine List.filter_congr fun e he => Bool.eq_iff_iff.2 ?_
    rw [bne_iff_ne, decide_eq_true_iff]
    refine not_congr ⟨?_, fun heq => ?_⟩
    · rintro rfl
      rfl
    · have hsome : b.get? e.1 = some e.2 := h.get?_eq_some_iff.2 he
      rw [heq, hget] at hsome
      exact Prod.ext heq (Option.some.inj hsome).symm
  rw [← hothers, ← (List.Nodup.of_map _ h.distinct).erase_eq_filter]
  exact List.perm_cons_erase hm

/-- The counters are those of a reservation and of the others together. -/
theorem counters_eq (h : b.Balanced) (hget : b.get? id = some r) :
    b.ledger.used.toNat =
        r.bytes.toNat + ((b.release id).outstanding.map fun e => e.2.bytes.toNat).sum ∧
      b.ledger.live = (b.release id).outstanding.length + 1 := by
  have hperm := h.perm_outstanding hget
  exact ⟨h.used.trans (hperm.map fun e => e.2.bytes.toNat).sum_eq, h.live.trans hperm.length_eq⟩

/-- Taking back leaves a budget balanced, with no more bytes in use. -/
theorem release (h : b.Balanced) (id : Nat) :
    (b.release id).Balanced ∧ (b.release id).ledger.used ≤ b.ledger.used := by
  cases hget : b.get? id with
  | none =>
    have hsame : b.release id = b := by rw [Budget.release, hget]
    rw [hsame]
    exact ⟨h, UInt64.le_refl _⟩
  | some r =>
    have hledger : (b.release id).ledger = b.ledger.release r := by rw [Budget.release, hget]
    obtain ⟨hsum, hlength⟩ := h.counters_eq hget
    have hbytes : r.bytes ≤ b.ledger.used := UInt64.le_iff_toNat_le.2 (by omega)
    have hused := UInt64.toNat_sub_of_le _ _ hbytes
    have hle : b.ledger.used - r.bytes ≤ b.ledger.used := UInt64.le_iff_toNat_le.2 (by omega)
    have hsub : (b.release id).outstanding.Sublist b.outstanding := by
      rw [outstanding_release]
      exact List.filter_sublist
    rw [hledger]
    refine ⟨⟨h.distinct.sublist (hsub.map _), fun e he => ?_, ?_, ?_, ?_, ?_⟩, hle⟩
    · rw [next_release]
      exact h.given e (hsub.subset he)
    · rw [hledger]
      show (b.ledger.used - r.bytes).toNat = _
      omega
    · rw [hledger]
      show b.ledger.live - 1 = _
      omega
    · rw [hledger]
      exact UInt64.le_trans hle h.used_le_capacity
    · rw [hledger]
      exact UInt64.le_trans hle h.used_le_peak

end Balanced

/-! ### Moves -/

/-- A budget moves by reserving bytes and by taking them back. -/
inductive Moves : Budget → Budget → Prop
  | stay (b : Budget) : Moves b b
  | reserve {b b' : Budget} {bytes id : Nat} {tag : String}
    (h : b.reserve bytes tag = .ok (id, b')) : Moves b b'
  | release (b : Budget) (id : Nat) : Moves b (b.release id)

namespace Moves

theorem balanced (h : Moves b b') (hb : b.Balanced) : b'.Balanced := by
  cases h with
  | stay => exact hb
  | reserve hreserve =>
    obtain ⟨hroom, -, rfl⟩ := reserve_eq_ok_iff.1 hreserve
    exact hb.grant hroom _
  | release => exact (hb.release _).1

theorem capacity (h : Moves b b') : b'.ledger.capacity = b.ledger.capacity := by
  cases h with
  | stay => rfl
  | reserve hreserve =>
    obtain ⟨-, -, rfl⟩ := reserve_eq_ok_iff.1 hreserve
    rfl
  | release id =>
    unfold Budget.release
    split <;> rfl

/-- The peak moves with the bytes in use. -/
theorem peak (h : Moves b b') (hb : b.Balanced) :
    b'.ledger.peak = max b.ledger.peak b'.ledger.used := by
  have hstay : ∀ used : UInt64, used ≤ b.ledger.used → b.ledger.peak = max b.ledger.peak used := by
    intro used hused
    obtain ⟨hle, hmax⟩ | ⟨-, hmax⟩ := max_cases b.ledger.peak used
    · exact (UInt64.le_antisymm hle (UInt64.le_trans hused hb.used_le_peak)).trans hmax.symm
    · exact hmax.symm
  cases h with
  | stay => exact hstay _ (UInt64.le_refl _)
  | reserve hreserve =>
    obtain ⟨-, -, rfl⟩ := reserve_eq_ok_iff.1 hreserve
    rfl
  | release id =>
    refine Eq.trans ?_ (hstay _ (hb.release id).2)
    unfold Budget.release
    split <;> rfl

end Moves

end Budget

end Collate
