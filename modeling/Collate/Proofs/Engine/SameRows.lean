import Collate.Proofs.Engine.SortedRows

/-!
# Batches with the same rows

Two lists of batches that put together have the same rows are sorted alike, wherever they are cut:
an address in the one corresponds to an address in the other that leads to the same row
(`Template.SameRow`), the addresses in order of arrival correspond one by one
(`Template.SameRows.forall₂_addresses`), and no step of the sort looks at anything but the rows
(`Template.SameRows.forall₂_sortedAddresses`).
-/

namespace Collate

open Input

namespace Template

variable {t : Template} {held held' : List (List Column)} {a a' b b' : Address} {slot : Nat}
  {f : FieldSlot}

/-- Batches have the same rows, in the same order of arrival. -/
def SameRows (t : Template) (held held' : List (List Column)) : Prop :=
  ∀ (slot : Nat) (f : FieldSlot), t.fields[slot]? = some f →
    columnCells held slot f.type = columnCells held' slot f.type

/-- An address in some batches leads to the same row as an address in others. -/
def SameRow (t : Template) (held held' : List (List Column)) (a a' : Address) : Prop :=
  ∀ (slot : Nat) (f : FieldSlot), t.fields[slot]? = some f →
    cell held slot f.type a = cell held' slot f.type a'

/-! ### The order of rows -/

theorem SameRow.hasNullKey (h : t.SameRow held held' a a') :
    t.hasNullKey held a = t.hasNullKey held' a' := by
  have hnull : ∀ slot, t.isNullAt held slot a = t.isNullAt held' slot a' := by
    intro slot
    unfold isNullAt
    cases hf : t.fields[slot]? with
    | none => rfl
    | some f => simp only [Option.any_some, h slot f hf]
  unfold Template.hasNullKey
  simp only [hnull]

theorem SameRow.keyOrder (ha : t.SameRow held held' a a') (hb : t.SameRow held held' b b')
    (slot : Nat) : t.keyOrder held slot a b = t.keyOrder held' slot a' b' := by
  unfold Template.keyOrder
  cases hf : t.fields[slot]? with
  | none => rfl
  | some f => simp only [ha slot f hf, hb slot f hf]

theorem SameRow.rowOrder (ha : t.SameRow held held' a a') (hb : t.SameRow held held' b b') :
    t.rowOrder held a b = t.rowOrder held' a' b' := by
  unfold Template.rowOrder
  induction t.keys with
  | nil => rfl
  | cons slot keys ih =>
    simp only [List.map_cons, lexOrder, compareLex, ha.keyOrder hb slot, ih]

/-! ### The sort -/

namespace SameRows

theorem totalRows_eq (h : t.SameRows held held') (hv : t.Valid) (hheld : t.Held held)
    (hheld' : t.Held held') : totalRows held = totalRows held' := by
  have hf := List.getElem?_eq_getElem hv.partitionSlot_lt
  rw [← length_columnCells fun columns hm => (hheld.fits columns hm).size_cells hf, h _ _ hf,
    length_columnCells fun columns hm => (hheld'.fits columns hm).size_cells hf]

/-- The rows correspond one by one, in order of arrival. -/
theorem forall₂_addresses (h : t.SameRows held held') (hv : t.Valid) (hheld : t.Held held)
    (hheld' : t.Held held') (hs : t.strategy = .indexed) :
    List.Forall₂ (t.SameRow held held') (addresses held) (addresses held') := by
  have hlength : (addresses held).length = (addresses held').length := by
    rw [length_addresses, length_addresses, h.totalRows_eq hv hheld hheld']
  refine List.forall₂_iff_get.2 ⟨hlength, fun i hi hi' slot f hf => ?_⟩
  have hcells := congrArg (·[i]?) (h slot f hf)
  rw [← map_cell_addresses (hheld.addressable hs) fun columns hm =>
      (hheld.fits columns hm).size_cells hf,
    ← map_cell_addresses (hheld'.addressable hs) fun columns hm =>
      (hheld'.fits columns hm).size_cells hf] at hcells
  simpa [hi, hi'] using hcells

/-- The sorted rows correspond one by one. -/
theorem forall₂_sortedAddresses (h : t.SameRows held held') (hv : t.Valid) (hheld : t.Held held)
    (hheld' : t.Held held') (hs : t.strategy = .indexed) :
    List.Forall₂ (t.SameRow held held') (t.sortedAddresses held) (t.sortedAddresses held') := by
  have haddresses := h.forall₂_addresses hv hheld hheld' hs
  refine NullOrder.forall₂_arrange (List.rel_filter (fun a a' ha => ?_) haddresses)
    (forall₂_mergeSort (List.rel_filter (fun a a' ha => ?_) haddresses)
      fun a b a' b' ha hb => by rw [ha.rowOrder hb])
  · simp only [ha.hasNullKey]
  · simp only [ha.hasNullKey]

/-- Batches with the same rows have the same sorted columns. -/
theorem sortedColumn_eq (h : t.SameRows held held') (hv : t.Valid) (hheld : t.Held held)
    (hheld' : t.Held held') (hf : t.fields[slot]? = some f) :
    t.sortedColumn held slot f.type = t.sortedColumn held' slot f.type := by
  unfold sortedColumn
  cases hs : t.strategy with
  | indexed =>
    have hsorted := h.forall₂_sortedAddresses hv hheld hheld' hs
    rw [← List.forall₂_eq_eq_eq, List.forall₂_map_left_iff, List.forall₂_map_right_iff]
    exact hsorted.imp fun a a' ha => ha slot f hf
  | inPlace => simp only [h slot f hf]

end SameRows

end Template

end Collate
