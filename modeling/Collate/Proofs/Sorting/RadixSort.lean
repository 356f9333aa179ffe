import Collate.Proofs.Sorting.StableSort
import Collate.Row.RadixSort

/-!
# Radix sort is a stable sort

A pass of a radix sort is a stable sort by one digit, whether it is left out or not
(`isStableSort_pass`).  After the passes for the lowest places the items are stably sorted by what
those places show of their keys (`isStableSort_foldl_pass`), and after all passes by the keys
themselves, if these have no more digits: `sort_eq_mergeSort` and `sortByKey_eq_mergeSort`.
-/

namespace Collate.Radix

variable {α : Type}

/-! ### One pass -/

theorem base_pos : 0 < base := by decide

theorem digit_lt (place n : Nat) : digit place n < base := Nat.mod_lt _ base_pos

/-- What the lowest places show of a number: the highest is a digit, the others are below. -/
theorem mod_base_pow_succ (place n : Nat) :
    n % base ^ (place + 1) = n % base ^ place + base ^ place * digit place n := by
  rw [digit, Nat.mod_pow_succ]

/-- Every bucket gets the items with its digit behind what it holds, in order. -/
theorem getElem?_foldl_modify (digit : α → Nat) (items : List α) (buckets : Array (Array α))
    (d : Nat) :
    (items.foldl (fun buckets a => buckets.modify (digit a) (·.push a)) buckets)[d]? =
      buckets[d]?.map fun bucket => bucket ++ (items.filter fun a => digit a = d).toArray := by
  induction items generalizing buckets with
  | nil => simp
  | cons a items ih =>
    rw [List.foldl_cons, ih, Array.getElem?_modify]
    by_cases h : digit a = d
    · simp [h, Function.comp_def]
    · simp [h]

theorem distribute_eq_flatMap (digit : α → Nat) (items : List α) :
    distribute digit items =
      (List.range base).flatMap fun d => items.filter fun a => digit a = d := by
  have buckets : items.foldl (fun buckets a => buckets.modify (digit a) (·.push a))
      (Array.replicate base (#[] : Array α)) =
      ((List.range base).map fun d => (items.filter fun a => digit a = d).toArray).toArray := by
    apply Array.ext_getElem?
    intro d
    rw [getElem?_foldl_modify]
    by_cases h : d < base
    · simp [h]
    · simp [h]
  simp only [distribute, buckets]
  rw [List.flatMap_map]

theorem flatMap_range_ite (count n : Nat) (items : List α) :
    ((List.range count).flatMap fun d => if d = n then items else []) =
      if n < count then items else [] := by
  induction count with
  | zero => simp
  | succ count ih =>
    rw [List.range_succ, List.flatMap_append, ih]
    rcases Nat.lt_trichotomy n count with h | rfl | h
    · simp [h, Nat.lt_succ_of_lt h, (Nat.ne_of_lt h).symm]
    · simp
    · simp [Nat.not_lt.2 (Nat.le_of_lt h), Nat.not_lt.2 h, Nat.ne_of_lt h]

theorem isStableSort_distribute {digit : α → Nat} (hd : ∀ a, digit a < base) (items : List α) :
    IsStableSort digit items (distribute digit items) where
  ordered := by
    rw [distribute_eq_flatMap, List.pairwise_flatMap]
    have digit_of_mem : ∀ {d a}, a ∈ items.filter (fun a => digit a = d) → digit a = d :=
      fun ha => by simpa using (List.mem_filter.1 ha).2
    refine ⟨fun d _ => List.pairwise_of_forall_mem_list fun a ha b hb => ?_,
      List.pairwise_lt_range.imp fun {d e} hde a ha b hb => ?_⟩
    · rw [digit_of_mem ha, digit_of_mem hb]
    · rw [digit_of_mem ha, digit_of_mem hb]
      exact Nat.le_of_lt hde
  kept n := by
    have bucket : ∀ d, (items.filter fun a => digit a = d).filter (fun a => digit a = n) =
        if d = n then items.filter fun a => digit a = n else [] := by
      intro d
      split_ifs with h
      · subst h
        exact List.filter_eq_self.2 fun a ha => (List.mem_filter.1 ha).2
      · refine List.filter_eq_nil_iff.2 fun a ha => ?_
        have : digit a = d := by simpa using (List.mem_filter.1 ha).2
        simp [this, h]
    rw [distribute_eq_flatMap, List.filter_flatMap]
    simp only [bucket, flatMap_range_ite]
    split_ifs with h
    · rfl
    · refine (List.filter_eq_nil_iff.2 fun a _ => ?_).symm
      have := hd a
      simp
      omega

/-- Items that all have the same digit are sorted by it. -/
theorem isStableSort_of_isUniform {digit : α → Nat} {items : List α} (h : isUniform digit items) :
    IsStableSort digit items items := by
  refine ⟨?_, fun _ => rfl⟩
  cases items with
  | nil => exact List.Pairwise.nil
  | cons first rest =>
    have same : ∀ item ∈ first :: rest, digit item = digit first := by
      simpa [isUniform] using h
    exact List.pairwise_of_forall_mem_list fun a ha b hb => by rw [same a ha, same b hb]

theorem distribute_of_isUniform {digit : α → Nat} (hd : ∀ a, digit a < base) {items : List α}
    (h : isUniform digit items) : distribute digit items = items :=
  (isStableSort_distribute hd items).unique (isStableSort_of_isUniform h)

/-- A pass is a stable sort by one digit, also where it is left out. -/
theorem isStableSort_pass (items : List (Nat × α)) (place : Nat) :
    IsStableSort (fun item => digit place item.1) items (pass items place) := by
  unfold pass
  simp only
  split_ifs with h
  · exact isStableSort_of_isUniform h
  · exact isStableSort_distribute (fun item => digit_lt place item.1) items

/-! ### All passes -/

/-- The passes for the lowest places sort by what these places show of the keys. -/
theorem isStableSort_foldl_pass (places : Nat) (items : List (Nat × α)) :
    IsStableSort (fun item => item.1 % base ^ places) items
      ((List.range places).foldl pass items) := by
  induction places with
  | zero =>
    simp only [Nat.pow_zero, Nat.mod_one]
    exact ⟨List.pairwise_of_forall fun _ _ => le_rfl, fun _ => rfl⟩
  | succ places ih =>
    rw [List.range_succ, List.foldl_append]
    simp only [mod_base_pow_succ]
    exact ih.low_high (fun item => Nat.mod_lt _ (Nat.pow_pos base_pos)) (isStableSort_pass _ _)

/-- With keys of at most `places` digits, a radix sort is the stable merge sort by the keys. -/
theorem sort_eq_mergeSort {places : Nat} {items : List (Nat × α)}
    (h : ∀ item ∈ items, item.1 < base ^ places) :
    sort places items = items.mergeSort fun a b => a.1 ≤ b.1 := by
  have keys : ∀ item ∈ items, item.1 % base ^ places = item.1 := fun item hm =>
    Nat.mod_eq_of_lt (h item hm)
  refine (isStableSort_foldl_pass places items).unique ?_
  have merged := isStableSort_mergeSort (fun item : Nat × α => item.1 % base ^ places) items
  have same : (items.mergeSort fun a b => a.1 % base ^ places ≤ b.1 % base ^ places) =
      items.mergeSort fun a b => a.1 ≤ b.1 :=
    mergeSort_congr fun a ha b hb => by rw [keys a ha, keys b hb]
  rwa [same] at merged

/-- Sorting items by the keys of a function is the stable merge sort by that function. -/
theorem sortByKey_eq_mergeSort {width : Nat} {key : α → Nat} {items : List α}
    (h : ∀ a ∈ items, key a < base ^ width) :
    sortByKey width key items = items.mergeSort fun a b => key a ≤ key b := by
  have small : ∀ item ∈ items.map fun a => (key a, a), item.1 < base ^ width := by
    simpa using h
  have pairs : ∀ item ∈ items.map fun a => (key a, a), item.1 = key item.2 := by simp
  rw [sortByKey, sort_eq_mergeSort small, List.map_mergeSort (s := fun a b => key a ≤ key b)
    fun a ha b hb => by rw [pairs a ha, pairs b hb]]
  simp [Function.comp_def]

end Collate.Radix
