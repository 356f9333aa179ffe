import Collate.Proofs.Engine.Accounts
import Collate.Proofs.Engine.Agreement

/-!
# What the ledger counts

The step lemma of the accounts (`SortContext.Accounted.call`) goes through runs: the books agree
with the context that a run ends in, the budget stays balanced, and its peak is the most that was in
use (`SortContext.Accounted.peak_after`).  Then the outstanding reservations are the results that
are referred to, one each (`SortContext.Accounted.perm_results`), and that is what the counters of
the ledger say in every state that can be reached (`SortContext.ledger_counts_results`).
-/

namespace Collate

namespace SortContext

variable {x : SortContext} {books : Books} {id : Nat}

/-! ### Runs -/

/-- The books of a run, begun with those of an earlier one. -/
theorem Accounted.after (h : x.Accounted books) (hgood : Good x) {calls : List Call}
    (hcalls : ∀ c ∈ calls, c.Valid) :
    (x.after calls).Accounted ((x.steps calls).foldl Books.enter books) := by
  induction calls generalizing x books with
  | nil => exact h
  | cons c calls ih =>
    rw [List.forall_mem_cons] at hcalls
    exact ih (h.call hgood hcalls.1).1 (hgood.call_good hcalls.1) hcalls.2

/-- In a run the budget stays balanced under its capacity. -/
theorem Accounted.balanced_after (h : x.Accounted books) (hgood : Good x)
    (hbalanced : x.budget.Balanced) {calls : List Call} (hcalls : ∀ c ∈ calls, c.Valid) :
    (x.after calls).budget.Balanced ∧
      (x.after calls).budget.ledger.capacity = x.budget.ledger.capacity := by
  induction calls generalizing x books with
  | nil => exact ⟨hbalanced, rfl⟩
  | cons c calls ih =>
    rw [List.forall_mem_cons] at hcalls
    obtain ⟨hcall, hmoves⟩ := h.call hgood hcalls.1
    obtain ⟨hafter, hcapacity⟩ :=
      ih hcall (hgood.call_good hcalls.1) (hmoves.balanced hbalanced) hcalls.2
    exact ⟨hafter, hcapacity.trans hmoves.capacity⟩

/-- The peak behind a run is not less than what was in use at any point of it, and is that of the
beginning or what was in use at some point. -/
theorem Accounted.peak_after (h : x.Accounted books) (hgood : Good x)
    (hbalanced : x.budget.Balanced) {calls : List Call} (hcalls : ∀ c ∈ calls, c.Valid) :
    let peak := (x.after calls).budget.ledger.peak
    x.budget.ledger.peak ≤ peak ∧
      (∀ earlier, earlier <+: calls → (x.after earlier).budget.ledger.used ≤ peak) ∧
      (peak = x.budget.ledger.peak ∨
        ∃ earlier, earlier <+: calls ∧ (x.after earlier).budget.ledger.used = peak) := by
  induction calls generalizing x books with
  | nil =>
    refine ⟨UInt64.le_refl _, fun earlier hearlier => ?_, .inl rfl⟩
    rw [List.prefix_nil.1 hearlier]
    exact hbalanced.used_le_peak
  | cons c calls ih =>
    rw [List.forall_mem_cons] at hcalls
    obtain ⟨hcall, hmoves⟩ := h.call hgood hcalls.1
    obtain ⟨hle, hused, hpeak⟩ :=
      ih hcall (hgood.call_good hcalls.1) (hmoves.balanced hbalanced) hcalls.2
    have hmax := hmoves.peak hbalanced
    have hstart : x.budget.ledger.peak ≤ (x.call c).2.budget.ledger.peak := by
      obtain ⟨hle', heq⟩ | ⟨-, heq⟩ := Budget.max_cases _ _
      · exact (hmax.trans heq) ▸ hle'
      · exact (hmax.trans heq) ▸ UInt64.le_refl _
    refine ⟨UInt64.le_trans hstart hle, fun earlier hearlier => ?_, ?_⟩
    · obtain rfl | ⟨rest, rfl, hrest⟩ := List.prefix_cons_iff.1 hearlier
      · exact UInt64.le_trans hbalanced.used_le_peak (UInt64.le_trans hstart hle)
      · exact hused rest hrest
    · obtain hsame | ⟨rest, hrest, heq⟩ := hpeak
      · -- The peak was reached with this call, or before the run.
        obtain ⟨-, heq⟩ | ⟨-, heq⟩ := Budget.max_cases x.budget.ledger.peak
          (x.call c).2.budget.ledger.used
        · exact .inr ⟨[c], (List.prefix_cons_inj c).2 List.nil_prefix,
            (hsame.trans (hmax.trans heq)).symm⟩
        · exact .inl (hsame.trans (hmax.trans heq))
      · exact .inr ⟨c :: rest, (List.prefix_cons_inj c).2 hrest, heq⟩

/-! ### Results -/

/-- The results that a sorter or a cursor of the context refers to: the numbers of their kernels. -/
def results (x : SortContext) (books : Books) : List Nat :=
  books.sorted.filter fun id => x.sorters.contains id ||
    x.cursors.keys.any fun cursor => books.origin cursor = some id

/-- The results that are referred to are those whose reservations are held. -/
theorem Accounted.mem_results_iff (h : x.Accounted books) : id ∈ x.results books ↔
    ∃ holder r, x.holding? holder = some r ∧ books.sorted[r]? = some id := by
  simp only [results, List.mem_filter, Bool.or_eq_true, List.any_eq_true, Table.mem_keys_iff,
    decide_eq_true_eq, Table.contains, Option.isSome_iff_exists]
  constructor
  · rintro ⟨hm, ⟨s, hs⟩ | ⟨cursor, ⟨c, hc⟩, horigin⟩⟩
    · cases hresult : s.result? with
      | none => exact absurd hm ((h.sorter id s hs).2.2 hresult)
      | some result =>
        have hown : x.holding? (.inl id) = some result.reservation := by
          rw [holding?_of_sorter hs, hresult, Option.map_some]
        obtain ⟨i, hi, hsorted⟩ := h.holder _ _ hown
        cases hi
        exact ⟨_, _, hown, hsorted⟩
    · have hown := holding?_of_cursor hc
      obtain ⟨i, hi, hsorted⟩ := h.holder _ _ hown
      cases horigin.symm.trans hi
      exact ⟨_, _, hown, hsorted⟩
  · rintro ⟨holder, r, hr, hsorted⟩
    obtain ⟨i, hi, hsorted'⟩ := h.holder holder r hr
    cases hsorted.symm.trans hsorted'
    refine ⟨List.mem_of_getElem? hsorted, ?_⟩
    cases holder with
    | inl i =>
      cases hi
      simp only [holding?, Option.map_eq_some_iff, Option.bind_eq_some_iff] at hr
      obtain ⟨result, ⟨s, hs, -⟩, -⟩ := hr
      exact .inl ⟨s, hs⟩
    | inr cursor =>
      simp only [holding?, Option.map_eq_some_iff] at hr
      obtain ⟨c, hc, -⟩ := hr
      exact .inr ⟨cursor, ⟨c, hc⟩, hi⟩

/-- The reservations that are outstanding are those of the results, one each, of their bytes. -/
theorem Accounted.perm_results (h : x.Accounted books) (hbalanced : x.budget.Balanced) :
    (x.budget.outstanding.map fun e => (books.sorted[e.1]?).getD 0).Perm (x.results books) ∧
      ∀ e ∈ x.budget.outstanding,
        e.2.bytes.toNat = books.bytes ((books.sorted[e.1]?).getD 0) := by
  have hentry : ∀ e ∈ x.budget.outstanding,
      ∃ id, books.sorted[e.1]? = some id ∧ e.2.bytes.toNat = books.bytes id :=
    fun e he => h.bytes e.1 e.2 (hbalanced.get?_eq_some_iff.2 he)
  have hdistinct : (x.results books).Nodup := h.distinct.filter _
  refine ⟨(List.perm_ext_iff_of_nodup ?_ hdistinct).2 fun id => ?_, fun e he => ?_⟩
  · have hmap : (x.budget.outstanding.map fun e => (books.sorted[e.1]?).getD 0) =
        (x.budget.outstanding.map Prod.fst).map fun r => (books.sorted[r]?).getD 0 := by
      rw [List.map_map]
      rfl
    rw [hmap]
    refine List.Nodup.map_on (fun r hr r' hr' heq => ?_) hbalanced.distinct
    obtain ⟨e, he, rfl⟩ := List.mem_map.1 hr
    obtain ⟨e', he', rfl⟩ := List.mem_map.1 hr'
    obtain ⟨i, hi, -⟩ := hentry e he
    obtain ⟨i', hi', -⟩ := hentry e' he'
    rw [hi, hi', Option.getD_some, Option.getD_some] at heq
    exact (List.getElem?_inj (List.getElem?_eq_some_iff.1 hi).1 h.distinct).1
      (hi.trans (heq ▸ hi'.symm))
  · rw [h.mem_results_iff, List.mem_map]
    constructor
    · rintro ⟨e, he, rfl⟩
      obtain ⟨i, hi, -⟩ := hentry e he
      have hsome : (x.budget.get? e.1).isSome := by
        rw [hbalanced.get?_eq_some_iff.2 he]
        rfl
      obtain ⟨holder, hr⟩ := (h.held e.1).1 hsome
      exact ⟨holder, e.1, hr, by rw [hi]; rfl⟩
    · rintro ⟨holder, r, hr, hsorted⟩
      obtain ⟨reservation, hget⟩ := Option.isSome_iff_exists.1 ((h.held r).2 ⟨holder, hr⟩)
      exact ⟨(r, reservation), hbalanced.get?_eq_some_iff.1 hget, by rw [hsorted]; rfl⟩
  · obtain ⟨i, hi, hbytes⟩ := hentry e he
    rw [hbytes, hi]
    rfl

/-- How many reservations the calls about a kernel make. -/
def reservations (id : Nat) (x : SortContext) : List Call → Nat
  | [] => 0
  | c :: calls =>
    (if c.sorter? = some id then (x.call c).2.budget.next - x.budget.next else 0) +
      reservations id (x.call c).2 calls

/-- Only a call about a kernel can make the kernel come to a result. -/
theorem Books.sorted_enter (books : Books) (c : Call) (a : Answer) :
    ∃ added, (books.enter (c, a)).sorted = books.sorted ++ added ∧
      ∀ id ∈ added, c.sorter? = some id := by
  have hsort : ∀ id, ∃ added, (books.sort id).sorted = books.sorted ++ added ∧
      ∀ i ∈ added, i = id := by
    intro id
    by_cases h : id ∈ books.sorted
    · exact ⟨[], by rw [sort_of_mem h, List.append_nil], List.forall_mem_nil _⟩
    · exact ⟨[id], by rw [sort_of_notMem h], fun i hi => List.mem_singleton.1 hi⟩
  unfold enter
  split
  · exact ⟨[], (List.append_nil _).symm, List.forall_mem_nil _⟩
  · exact ⟨[], (List.append_nil _).symm, List.forall_mem_nil _⟩
  · next id _ heq =>
    cases heq
    obtain ⟨added, hsorted, hadded⟩ := hsort id
    exact ⟨added, hsorted, fun i hi => congrArg some (hadded i hi).symm⟩
  · next id _ _ heq =>
    cases heq
    obtain ⟨added, hsorted, hadded⟩ := hsort id
    exact ⟨added, hsorted, fun i hi => congrArg some (hadded i hi).symm⟩
  · exact ⟨[], (List.append_nil _).symm, List.forall_mem_nil _⟩

/-- A kernel makes a reservation when it comes to its result. -/
theorem Accounted.reservations_add_count (h : x.Accounted books) (hgood : Good x)
    {calls : List Call} (hcalls : ∀ c ∈ calls, c.Valid) (id : Nat) :
    x.reservations id calls + books.sorted.count id =
      ((x.steps calls).foldl Books.enter books).sorted.count id := by
  induction calls generalizing x books with
  | nil => exact Nat.zero_add _
  | cons c calls ih =>
    rw [List.forall_mem_cons] at hcalls
    have hcall := (h.call hgood hcalls.1).1
    obtain ⟨added, hsorted, hadded⟩ := books.sorted_enter c (x.call c).1
    have hrest := ih hcall (hgood.call_good hcalls.1) hcalls.2
    have hcount : (if c.sorter? = some id then added.length else 0) = added.count id := by
      split_ifs with hid
      · exact (List.count_eq_length.2 fun i hi =>
          Option.some.inj (hid.symm.trans (hadded i hi))).symm
      · exact (List.count_eq_zero.2 fun hm => hid (hadded id hm)).symm
    rw [hsorted, List.count_append] at hrest
    rw [steps, List.foldl_cons, ← hrest, reservations, hcall.next, h.next, hsorted,
      List.length_append, Nat.add_sub_cancel_left, hcount]
    omega

/-- The ledger counts the results that are referred to.  In every state that calls with valid
kernels can lead to, the live reservations are as many as there are results that a sorter or a
cursor refers to, the bytes in use are those of the rows that their kernels have taken, neither
exceeds the capacity nor the peak, and the peak is the most that was in use.  So the calls about a
kernel, however often it is finished or read, reserve once at most, and where every sorter and every
cursor has been dropped nothing is in use. -/
theorem ledger_counts_results (capacity : UInt64) {calls : List Call}
    (hcalls : ∀ c ∈ calls, c.Valid) :
    let start := ofCapacity capacity
    let x := start.after calls
    let books := Books.ofSteps (start.steps calls)
    let ledger := x.budget.ledger
    (x.results books).Nodup ∧ ledger.live = (x.results books).length ∧
      ledger.used.toNat = ((x.results books).map books.bytes).sum ∧
      (ledger.capacity = capacity ∧ ledger.used ≤ capacity) ∧
      ((∀ earlier, earlier <+: calls → (start.after earlier).budget.ledger.used ≤ ledger.peak) ∧
        ∃ earlier, earlier <+: calls ∧ (start.after earlier).budget.ledger.used = ledger.peak) ∧
      (∀ id, start.reservations id calls ≤ 1) ∧
      ((∀ id, x.sorters.get? id = none) → (∀ cursor, x.cursors.get? cursor = none) →
        ledger.used = 0 ∧ ledger.live = 0) := by
  intro start x books ledger
  have hstart := accounted_ofCapacity capacity
  have hgood := good_ofCapacity capacity
  have hbalanced₀ := Budget.balanced_ofCapacity capacity
  have h : x.Accounted books := hstart.after hgood hcalls
  obtain ⟨hbalanced, hcapacity⟩ := hstart.balanced_after hgood hbalanced₀ hcalls
  replace hcapacity : ledger.capacity = capacity := hcapacity
  obtain ⟨-, hused, hpeak⟩ := hstart.peak_after hgood hbalanced₀ hcalls
  obtain ⟨hperm, hbytes⟩ := h.perm_results hbalanced
  have hlive : ledger.live = (x.results books).length := by
    rw [← hperm.length_eq, List.length_map]
    exact hbalanced.live
  have hsum : ledger.used.toNat = ((x.results books).map books.bytes).sum := by
    rw [← (hperm.map books.bytes).sum_eq, List.map_map]
    exact hbalanced.used.trans (congrArg List.sum (List.map_congr_left hbytes))
  refine ⟨h.distinct.filter _, hlive, hsum,
    ⟨hcapacity, hcapacity.subst hbalanced.used_le_capacity⟩, ⟨hused, ?_⟩, fun id => ?_,
    fun hsorters hcursors => ?_⟩
  · obtain hzero | hearlier := hpeak
    · exact ⟨[], List.nil_prefix, hzero.symm⟩
    · exact hearlier
  · have hcount := hstart.reservations_add_count hgood hcalls id
    have hone := List.nodup_iff_count_le_one.1 h.distinct id
    exact (Nat.le_add_right _ _).trans (hcount.trans_le hone)
  · have hnone : x.results books = [] := by
      refine List.eq_nil_iff_forall_not_mem.2 fun id hid => ?_
      obtain ⟨holder, r, hr, -⟩ := h.mem_results_iff.1 hid
      cases holder <;> simp [holding?, hsorters, hcursors] at hr
    rw [hnone] at hlive hsum
    exact ⟨UInt64.toNat_inj.1 hsum, hlive⟩

/-- Two kernels take floats, and the first is dropped behind a cursor on its result. -/
def sharingRun : List Call :=
  [.make (Sorter.floatKernel .inPlace), .make (Sorter.floatKernel .inPlace)] ++
    Sorter.floatBatches.mapIdx (fun id columns => .evaluate id columns) ++
    [.openCursor 0 [⟨"x", .column .float32, true⟩], .finish 0, .dropSorter 0, .finish 1]

/-- The cursor keeps the result of the first kernel, so with that of the second one a budget of 16
bytes is used up. -/
theorem sharingRun_counts :
    let x := (ofCapacity 16).after sharingRun
    (∀ c ∈ sharingRun, c.Valid) ∧ x.budget.ledger.live = 2 ∧
      x.budget.ledger.used.toNat = 16 ∧ (ofCapacity 16).reservations 0 sharingRun ≤ 1 :=
  have valid : ∀ c ∈ sharingRun, c.Valid := by
    simp only [sharingRun, Sorter.floatBatches, List.mapIdx_cons, List.mapIdx_nil, List.cons_append,
      List.nil_append, List.forall_mem_cons, Call.Valid, List.not_mem_nil, false_imp_iff,
      implies_true, and_true]
    decide
  have counts := ledger_counts_results 16 valid
  ⟨valid, counts.2.1.trans (by cbv), counts.2.2.1.trans (by cbv), counts.2.2.2.2.2.1 0⟩

end SortContext

end Collate
