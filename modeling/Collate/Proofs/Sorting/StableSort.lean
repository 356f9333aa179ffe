import Mathlib

/-!
# Stable sorting

What it means that a list is the stable sort of another by a numeric key (`IsStableSort`): the keys
do not fall, and the items with any one key stand as they stood before.  There is only one such list
(`IsStableSort.unique`), and a merge sort by the key finds it (`isStableSort_mergeSort`).  For a
merge sort by any total preorder, `pairwise_mergeSort_of_pairwise` says how two items of the result
stand to each other: in order, and as they stood before if they tie.  Merge sorts of lists that
correspond item by item correspond (`forall₂_mergeSort`).
-/

namespace Collate

variable {α : Type}

/-- The list `sorted` is the stable sort of `items` by `key`. -/
structure IsStableSort (key : α → Nat) (items sorted : List α) : Prop where
  ordered : sorted.Pairwise fun a b => key a ≤ key b
  kept : ∀ n, sorted.filter (fun a => key a = n) = items.filter fun a => key a = n

namespace IsStableSort

variable {key : α → Nat} {items sorted other : List α}

/-- An item with the key of another item is not the last of a sorted list before that one. -/
theorem key_head_le {a b : α} {rest : List α} (h : (a :: rest).Pairwise fun a b => key a ≤ key b)
    (hb : b ∈ a :: rest) : key a ≤ key b := by
  rcases List.mem_cons.1 hb with rfl | hb
  · exact le_rfl
  · exact List.rel_of_pairwise_cons h hb

theorem mem_of_filter_eq
    (h : ∀ n, sorted.filter (fun a => key a = n) = other.filter fun a => key a = n) {a : α}
    (ha : a ∈ sorted) : a ∈ other := by
  have hm : a ∈ sorted.filter fun b => key b = key a := List.mem_filter.2 ⟨ha, by simp⟩
  rw [h] at hm
  exact (List.mem_filter.1 hm).1

/-- Sorted lists with the same items for every key are equal. -/
theorem eq_of_filter_eq (ho : sorted.Pairwise fun a b => key a ≤ key b)
    (ho' : other.Pairwise fun a b => key a ≤ key b)
    (h : ∀ n, sorted.filter (fun a => key a = n) = other.filter fun a => key a = n) :
    sorted = other := by
  induction sorted generalizing other with
  | nil =>
    cases other with
    | nil => rfl
    | cons b other =>
      have : b ∈ [] := mem_of_filter_eq (fun n => (h n).symm) List.mem_cons_self
      simp at this
  | cons a sorted ih =>
    cases other with
    | nil =>
      have : a ∈ [] := mem_of_filter_eq h List.mem_cons_self
      simp at this
    | cons b other =>
      have hab : key a = key b :=
        le_antisymm (key_head_le ho (mem_of_filter_eq (fun n => (h n).symm) List.mem_cons_self))
          (key_head_le ho' (mem_of_filter_eq h List.mem_cons_self))
      have heads := h (key a)
      simp only [List.filter_cons, hab, decide_true, if_true, List.cons.injEq] at heads
      obtain ⟨rfl, -⟩ := heads
      rw [ih (List.Pairwise.of_cons ho) (List.Pairwise.of_cons ho') fun n => ?_]
      have hn := h n
      by_cases hk : key a = n
      · simpa [List.filter_cons, hk] using hn
      · simpa [List.filter_cons, hk] using hn

theorem unique (h : IsStableSort key items sorted) (h' : IsStableSort key items other) :
    sorted = other :=
  eq_of_filter_eq h.ordered h'.ordered fun n => (h.kept n).trans (h'.kept n).symm

/-- Where the items of each key are related in order, so are all items with equal keys. -/
theorem pairwise_of_pairwise_filter {R : α → α → Prop}
    (h : ∀ n, (items.filter fun a => key a = n).Pairwise R) :
    items.Pairwise fun a b => key a = key b → R a b := by
  induction items with
  | nil => exact List.Pairwise.nil
  | cons a items ih =>
    refine List.pairwise_cons.2 ⟨fun b hb e => ?_, ih fun n => ?_⟩
    · have hn := h (key a)
      rw [List.filter_cons_of_pos (by simp)] at hn
      exact List.rel_of_pairwise_cons hn (List.mem_filter.2 ⟨hb, by simp [e]⟩)
    · exact (h n).sublist ((List.sublist_cons_self a items).filter _)

/-- Sorting by a low digit first and by a high digit then sorts by the number of the two digits. -/
theorem low_high {low high : α → Nat} {m : Nat} {middle : List α} (hlow : ∀ a, low a < m)
    (hl : IsStableSort low items middle) (hh : IsStableSort high middle sorted) :
    IsStableSort (fun a => low a + m * high a) items sorted where
  ordered := by
    have level : sorted.Pairwise fun a b => high a = high b → low a ≤ low b :=
      pairwise_of_pairwise_filter fun n => hh.kept n ▸ hl.ordered.filter _
    refine hh.ordered.imp₂ (fun a b hab hlevel => ?_) level
    rcases Nat.lt_or_eq_of_le hab with hlt | heq
    · have : m * (high a + 1) ≤ m * high b := Nat.mul_le_mul_left m hlt
      have := hlow a
      rw [Nat.mul_succ] at *
      omega
    · have := hlevel heq
      rw [heq]
      omega
  kept n := by
    have digits : ∀ a, decide (low a + m * high a = n) =
        (decide (high a = n / m) && decide (low a = n % m)) := by
      intro a
      have hm : 0 < m := Nat.lt_of_le_of_lt (Nat.zero_le _) (hlow a)
      rw [← Bool.decide_and, decide_eq_decide]
      constructor
      · rintro rfl
        rw [Nat.add_mul_div_left _ _ hm, Nat.div_eq_of_lt (hlow a), Nat.add_mul_mod_self_left,
          Nat.mod_eq_of_lt (hlow a)]
        simp
      · rintro ⟨h₁, h₂⟩
        rw [h₁, h₂]
        exact Nat.mod_add_div n m
    have swap : ∀ l : List α, (l.filter fun a => low a + m * high a = n) =
        (l.filter fun a => high a = n / m).filter fun a => low a = n % m := by
      intro l
      rw [List.filter_filter]
      exact List.filter_congr fun a _ => (digits a).trans (Bool.and_comm _ _)
    rw [swap, swap, hh.kept, List.filter_filter, List.filter_filter]
    simp only [Bool.and_comm (decide (low _ = n % m))]
    rw [← List.filter_filter, hl.kept, List.filter_filter]

end IsStableSort

/-! ### Merge sort -/

section MergeSort

variable {le : α → α → Bool}

/-- Two items of a merge sort are in order, and if they tie they stand as they stood before. -/
theorem pairwise_mergeSort_of_pairwise (trans : ∀ a b c, le a b → le b c → le a c)
    (total : ∀ a b, le a b || le b a) {R : α → α → Prop} {items : List α} (h : items.Pairwise R) :
    (items.mergeSort le).Pairwise fun a b => le a b ∧ (le b a → R a b) := by
  induction items with
  | nil => simp
  | cons a items ih =>
    obtain ⟨before, after, hwhole, hrest, hbefore⟩ := List.mergeSort_cons trans total a items
    have ordered := List.pairwise_mergeSort trans total (a :: items)
    have hmem : ∀ b ∈ after, b ∈ items := fun b hb =>
      List.mem_mergeSort.1 (hrest ▸ List.mem_append_right before hb)
    have hsub := ih (List.Pairwise.of_cons h)
    rw [hwhole] at ordered ⊢
    rw [hrest] at hsub
    rw [List.pairwise_append] at ordered hsub ⊢
    refine ⟨hsub.1, List.pairwise_cons.2 ⟨fun b hb => ?_, hsub.2.1⟩, fun x hx y hy => ?_⟩
    · exact ⟨List.rel_of_pairwise_cons ordered.2.1 hb,
        fun _ => List.rel_of_pairwise_cons h (hmem b hb)⟩
    · rcases List.mem_cons.1 hy with rfl | hy
      · have hlt : le y x = false := by simpa using hbefore x hx
        exact ⟨ordered.2.2 x hx y List.mem_cons_self, fun hle => by simp [hlt] at hle⟩
      · exact hsub.2.2 x hx y hy

/-- Merge sorts by relations that agree on the items are equal. -/
theorem mergeSort_congr {le' : α → α → Bool} {items : List α}
    (h : ∀ a ∈ items, ∀ b ∈ items, le a b = le' a b) :
    items.mergeSort le = items.mergeSort le' := by
  simpa using List.map_mergeSort (f := id) h

/-- Lists of related items, sorted by relations that agree on them, are related. -/
theorem forall₂_mergeSort {β : Type} {R : α → β → Prop} {le' : β → β → Bool} {as : List α}
    {bs : List β} (h : List.Forall₂ R as bs)
    (hle : ∀ a b a' b', R a a' → R b b' → le a b = le' a' b') :
    List.Forall₂ R (as.mergeSort le) (bs.mergeSort le') := by
  -- both lists are sorted as the one list of their pairs is
  obtain ⟨hlength, hpairs⟩ := List.forall₂_iff_zip.1 h
  have hsort : (as.zip bs).mergeSort (fun p q => le p.1 q.1) =
      (as.zip bs).mergeSort fun p q => le' p.2 q.2 :=
    mergeSort_congr fun p hp q hq => hle _ _ _ _ (hpairs hp) (hpairs hq)
  have hfst : as.mergeSort le = ((as.zip bs).mergeSort fun p q => le p.1 q.1).map Prod.fst := by
    rw [List.map_mergeSort (f := Prod.fst) (s := le) fun _ _ _ _ => rfl,
      List.map_fst_zip hlength.le]
  have hsnd : bs.mergeSort le' = ((as.zip bs).mergeSort fun p q => le p.1 q.1).map Prod.snd := by
    rw [hsort, List.map_mergeSort (f := Prod.snd) (s := le') fun _ _ _ _ => rfl,
      List.map_snd_zip hlength.ge]
  rw [hfst, hsnd, List.forall₂_map_left_iff, List.forall₂_map_right_iff, List.forall₂_same]
  exact fun p hp => hpairs (List.mem_mergeSort.1 hp)

end MergeSort

theorem isStableSort_mergeSort (key : α → Nat) (items : List α) :
    IsStableSort key items (items.mergeSort fun a b => key a ≤ key b) := by
  have trans : ∀ a b c : α, decide (key a ≤ key b) → decide (key b ≤ key c) →
      decide (key a ≤ key c) := by
    simp only [decide_eq_true_eq]
    exact fun _ _ _ => le_trans
  have total : ∀ a b : α, decide (key a ≤ key b) || decide (key b ≤ key a) := by
    simp only [Bool.or_eq_true, decide_eq_true_eq]
    exact fun a b => le_total _ _
  refine ⟨(List.pairwise_mergeSort trans total items).imp fun h => by simpa using h, fun n => ?_⟩
  have level : (items.filter fun a => key a = n).Pairwise fun a b => decide (key a ≤ key b) := by
    refine List.Pairwise.imp_of_mem (R := fun _ _ => True) (fun ha hb _ => ?_)
      (List.pairwise_of_forall fun _ _ => trivial)
    have ha := (List.mem_filter.1 ha).2
    have hb := (List.mem_filter.1 hb).2
    simp only [decide_eq_true_eq] at ha hb ⊢
    omega
  have sub := (List.sublist_mergeSort trans total level List.filter_sublist).filter
    fun a => key a = n
  rw [List.filter_filter] at sub
  simp only [Bool.and_self] at sub
  have len :=
    ((List.mergeSort_perm items fun a b => key a ≤ key b).filter fun a => key a = n).length_eq
  exact (sub.eq_of_length len.symm).symm

end Collate
