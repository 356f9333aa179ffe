import Mathlib
import Collate.Engine.IndexSorter

/-!
# Placing rows

The first pass of an index engine writes the rows with a null key and the others behind two
cursors.  Whichever of the two regions comes first, it ends with each kind of row in its region and
in order of arrival (`place?_ofNullOrder`), and sorting the one region leaves the other as it is
(`sortRange?_arrange`).
-/

namespace Collate

/-- Puts the rows with a null key on the side that the null order asks for. -/
def NullOrder.arrange {α : Type} (o : NullOrder) (nulls values : List α) : List α :=
  match o with
  | .first => nulls ++ values
  | .last => values ++ nulls

namespace NullOrder

variable {α : Type} {o : NullOrder} {nulls values : List α}

theorem length_arrange : (o.arrange nulls values).length = nulls.length + values.length := by
  cases o with
  | first => exact List.length_append
  | last => rw [arrange, List.length_append, Nat.add_comm]

theorem arrange_perm : (o.arrange nulls values).Perm (nulls ++ values) := by
  cases o with
  | first => exact List.Perm.refl _
  | last => exact List.perm_append_comm

theorem map_arrange {β : Type} (f : α → β) :
    (o.arrange nulls values).map f = o.arrange (nulls.map f) (values.map f) := by
  cases o with
  | first => exact List.map_append
  | last => exact List.map_append

theorem forall₂_arrange {β : Type} {R : α → β → Prop} {nulls' values' : List β}
    (hnulls : List.Forall₂ R nulls nulls') (hvalues : List.Forall₂ R values values') :
    List.Forall₂ R (o.arrange nulls values) (o.arrange nulls' values') := by
  cases o with
  | first => exact List.rel_append hnulls hvalues
  | last => exact List.rel_append hvalues hnulls

end NullOrder

/-! ### Placing -/

namespace IndexSorter

variable {partition : ColumnBuffer} {isNull : Address → Bool} {rows : List Address}

/-- After placing, the region behind each cursor holds the rows of its kind, and nothing else has
changed. -/
theorem getElem?_place? (validAt nullAt : Nat) (out : Array Address)
    (h : ∀ a ∈ rows, partition.isNull? a = some (isNull a))
    (hvalid : validAt + (rows.filter fun a => !isNull a).length ≤ out.size)
    (hnull : nullAt + (rows.filter isNull).length ≤ out.size)
    (hdisjoint : validAt + (rows.filter fun a => !isNull a).length ≤ nullAt ∨
      nullAt + (rows.filter isNull).length ≤ validAt) :
    ∃ placed, place? partition rows validAt nullAt out = some placed ∧ placed.size = out.size ∧
      ∀ i, placed[i]? =
        if validAt ≤ i ∧ i < validAt + (rows.filter fun a => !isNull a).length then
          (rows.filter fun a => !isNull a)[i - validAt]?
        else if nullAt ≤ i ∧ i < nullAt + (rows.filter isNull).length then
          (rows.filter isNull)[i - nullAt]?
        else out[i]? := by
  induction rows generalizing validAt nullAt out with
  | nil =>
    refine ⟨out, rfl, rfl, fun i => ?_⟩
    rw [if_neg (by simp), if_neg (by simp)]
  | cons a rows ih =>
    rw [List.forall_mem_cons] at h
    cases ha : isNull a with
    | true =>
      simp only [List.filter_cons, ha, Bool.not_true, Bool.false_eq_true, if_false, if_true,
        List.length_cons] at hvalid hnull hdisjoint ⊢
      obtain ⟨placed, hplaced, hsize, hget⟩ := ih validAt (nullAt + 1)
        (out.setIfInBounds nullAt a) h.2 (by simpa using hvalid)
        (by rw [Array.size_setIfInBounds]; omega) (by omega)
      refine ⟨placed, ?_, by simpa using hsize, fun i => ?_⟩
      · rw [place?, h.1, ha]
        simp only
        rw [if_pos (by omega), hplaced]
      · rw [hget]
        by_cases hi : i = nullAt
        · subst hi
          rw [if_neg (by omega), if_neg (by omega), if_neg (by omega), if_pos (by omega),
            Array.getElem?_setIfInBounds_self_of_lt (by omega)]
          simp
        · have same : (nullAt + 1 ≤ i ∧ i < nullAt + 1 + (rows.filter isNull).length) ↔
              nullAt ≤ i ∧ i < nullAt + ((rows.filter isNull).length + 1) := by omega
          rw [Array.getElem?_setIfInBounds_ne (Ne.symm hi)]
          simp only [same]
          split_ifs
          · rfl
          · rw [show i - nullAt = i - (nullAt + 1) + 1 by omega, List.getElem?_cons_succ]
          · rfl
    | false =>
      simp only [List.filter_cons, ha, Bool.not_false, Bool.false_eq_true, if_false, if_true,
        List.length_cons] at hvalid hnull hdisjoint ⊢
      obtain ⟨placed, hplaced, hsize, hget⟩ := ih (validAt + 1) nullAt
        (out.setIfInBounds validAt a) h.2 (by rw [Array.size_setIfInBounds]; omega)
        (by simpa using hnull) (by omega)
      refine ⟨placed, ?_, by simpa using hsize, fun i => ?_⟩
      · rw [place?, h.1, ha]
        simp only
        rw [if_pos (by omega), hplaced]
      · rw [hget]
        by_cases hi : i = validAt
        · subst hi
          rw [if_neg (by omega), if_neg (by omega), if_pos (by omega),
            Array.getElem?_setIfInBounds_self_of_lt (by omega)]
          simp
        · have same : (validAt + 1 ≤ i ∧
              i < validAt + 1 + (rows.filter fun a => !isNull a).length) ↔ validAt ≤ i ∧
              i < validAt + ((rows.filter fun a => !isNull a).length + 1) := by omega
          rw [Array.getElem?_setIfInBounds_ne (Ne.symm hi)]
          simp only [same]
          split_ifs
          · rw [show i - validAt = i - (validAt + 1) + 1 by omega, List.getElem?_cons_succ]
          · rfl
          · rfl

/-- The first pass puts the rows with a null key on the side that the null order asks for. -/
theorem place?_ofNullOrder (o : NullOrder) (h : ∀ a ∈ rows, partition.isNull? a = some (isNull a)) :
    place? partition rows
        ((Placement.ofNullOrder o).valid.offset rows.length (rows.countP isNull))
        ((Placement.ofNullOrder o).null.offset rows.length (rows.countP isNull))
        (Array.replicate rows.length ⟨0, 0⟩) =
      some (o.arrange (rows.filter isNull) (rows.filter fun a => !isNull a)).toArray := by
  have count : (rows.filter isNull).length + (rows.filter fun a => !isNull a).length =
      rows.length := by
    rw [← List.countP_eq_length_filter, ← List.countP_eq_length_filter]
    simpa using (List.length_eq_countP_add_countP isNull (l := rows)).symm
  rw [List.countP_eq_length_filter]
  generalize hnulls : rows.filter isNull = nulls at *
  generalize hvalues : (rows.filter fun a => !isNull a) = values at *
  have size : (Array.replicate rows.length (⟨0, 0⟩ : Address)).size = rows.length :=
    Array.size_replicate
  cases o with
  | first =>
    obtain ⟨placed, hplaced, -, hget⟩ := getElem?_place? nulls.length 0
      (Array.replicate rows.length ⟨0, 0⟩) h (by rw [hvalues]; omega) (by rw [hnulls]; omega)
      (by rw [hnulls]; omega)
    show place? partition rows nulls.length 0 _ = _
    rw [hplaced]
    refine congrArg some (Array.ext_getElem? fun i => ?_)
    rw [hget, hnulls, hvalues]
    have whole : (nulls ++ values).toArray[i]? = (nulls ++ values)[i]? := List.getElem?_toArray
    show _ = (nulls ++ values).toArray[i]?
    rw [whole]
    rcases Nat.lt_or_ge i nulls.length with hi | hi
    · rw [if_neg (by omega), if_pos (by omega), List.getElem?_append_left hi, Nat.sub_zero]
    · rw [List.getElem?_append_right hi]
      split_ifs
      · rfl
      · omega
      · rw [Array.getElem?_eq_none (by omega), List.getElem?_eq_none (by omega)]
  | last =>
    obtain ⟨placed, hplaced, -, hget⟩ := getElem?_place? 0 values.length
      (Array.replicate rows.length ⟨0, 0⟩) h (by rw [hvalues]; omega) (by rw [hnulls]; omega)
      (by rw [hvalues]; omega)
    have tail : rows.length - nulls.length = values.length := by omega
    show place? partition rows 0 (rows.length - nulls.length) _ = _
    rw [tail, hplaced]
    refine congrArg some (Array.ext_getElem? fun i => ?_)
    rw [hget, hnulls, hvalues]
    have whole : (values ++ nulls).toArray[i]? = (values ++ nulls)[i]? := List.getElem?_toArray
    show _ = (values ++ nulls).toArray[i]?
    rw [whole]
    rcases Nat.lt_or_ge i values.length with hi | hi
    · rw [if_pos (by omega), List.getElem?_append_left hi, Nat.sub_zero]
    · rw [List.getElem?_append_right hi, if_neg (by omega)]
      split_ifs
      · rfl
      · rw [Array.getElem?_eq_none (by omega), List.getElem?_eq_none (by omega)]

end IndexSorter

/-! ### Sorting one region -/

theorem toList_extract_append {α : Type} (before middle after : List α) :
    ((before ++ middle ++ after).toArray.extract before.length
      (before.length + middle.length)).toList = middle := by
  simp [List.extract_eq_take_drop]

theorem sortRange?_append {α : Type} {middle sorted : List α} {sort : List α → Option (List α)}
    (before after : List α) (h : sort middle = some sorted) :
    sortRange? ⟨before.length, before.length + middle.length⟩ sort
        (before ++ middle ++ after).toArray = some (before ++ sorted ++ after).toArray := by
  rw [sortRange?, if_pos (by simp), toList_extract_append, h]
  simp [List.extract_eq_take_drop]
  omega

/-- Sorting a range keeps the size, and the range then holds what the sort made of it. -/
theorem extract_sortRange? {α : Type} {range : Range} {sorted : List α}
    (sort : List α → Option (List α)) (items : Array α) (hstart : range.start ≤ range.stop)
    (hstop : range.stop ≤ items.size)
    (h : sort (items.extract range.start range.stop).toList = some sorted)
    (hlen : sorted.length = range.stop - range.start) :
    ∃ result, sortRange? range sort items = some result ∧ result.size = items.size ∧
      (result.extract range.start range.stop).toList = sorted := by
  have hbefore : (items.toList.take range.start).length = range.start := by
    rw [List.length_take, Array.length_toList]
    omega
  have hmiddle : (items.extract range.start range.stop).toList.length =
      range.stop - range.start := by
    rw [Array.length_toList, Array.size_extract]
    omega
  have hitems : items = (items.toList.take range.start ++
      (items.extract range.start range.stop).toList ++ items.toList.drop range.stop).toArray := by
    have hrest : (items.toList.drop range.start).drop (range.stop - range.start) =
        items.toList.drop range.stop := by
      rw [List.drop_drop, Nat.add_sub_cancel' hstart]
    rw [Array.toList_extract, List.extract_eq_take_drop, ← hrest, List.append_assoc,
      List.take_append_drop, List.take_append_drop, Array.toArray_toList]
  have hrange : (⟨(items.toList.take range.start).length, (items.toList.take range.start).length +
      (items.extract range.start range.stop).toList.length⟩ : Range) = range := by
    rw [hbefore, hmiddle, Nat.add_sub_cancel' hstart]
  have hsort := sortRange?_append (items.toList.take range.start) (items.toList.drop range.stop) h
  rw [hrange, ← hitems] at hsort
  have hextract := toList_extract_append (items.toList.take range.start) sorted
    (items.toList.drop range.stop)
  rw [hbefore, hlen, Nat.add_sub_cancel' hstart] at hextract
  refine ⟨_, hsort, ?_, hextract⟩
  simp [hlen]
  omega

/-- Sorting the region of the rows with a value leaves the other as it is. -/
theorem sortRange?_arrange {α : Type} {values sorted : List α} {sort : List α → Option (List α)}
    (o : NullOrder) (nulls : List α) (h : sort values = some sorted) :
    sortRange? ((Placement.ofNullOrder o).validRange (nulls.length + values.length) nulls.length)
        sort (o.arrange nulls values).toArray = some (o.arrange nulls sorted).toArray := by
  cases o with
  | first =>
    have := sortRange?_append nulls [] h
    simpa [Placement.validRange, Placement.ofNullOrder, Region.offset, NullOrder.arrange] using this
  | last =>
    have := sortRange?_append [] nulls h
    simpa [Placement.validRange, Placement.ofNullOrder, Region.offset, NullOrder.arrange] using this

end Collate
