import Collate.Proofs.Row.ValueOrder
import Collate.Row.RowOrder
import Collate.Template.Basic

/-!
# The comparison of rows

Two rows that are buffered can always be compared, column by column
(`RowOrder.compare?_of_inRange`), by a total preorder.  They tie if they tie in every column, and
else the first column in which they do not tie decides (`RowOrder.compare?_preorder`).
-/

namespace Collate

/-! ### The cells of one column -/

namespace ColumnBuffer

variable {b : ColumnBuffer} {x y : Address} {cell cell' : Option b.type.Value}

theorem isNull?_of_cell? (h : b.cell? x = some cell) : b.isNull? x = some cell.isNone := by
  obtain ⟨cells, hcells, hcell⟩ := Option.bind_eq_some_iff.1 h
  rw [isNull?, hcells]
  exact Cells.isNull?_of_get? hcell

theorem stored?_of_cell? (h : b.cell? x = some cell) :
    b.stored? x = some (cell.getD b.type.layout.zero) := by
  rw [stored?, h]
  rfl

theorem order?_of_cell? (hx : b.cell? x = some cell) (hy : b.cell? y = some cell') :
    b.order? x y = some (b.type.layout.order (cell.getD b.type.layout.zero)
      (cell'.getD b.type.layout.zero)) := by
  rw [order?, stored?_of_cell? hx, stored?_of_cell? hy]
  rfl

end ColumnBuffer

namespace RowOrder

variable {o : RowOrder} {columns : List ColumnBuffer} {slots : List Nat} {slot : Nat}
  {column : ColumnBuffer} {x y : Address}

/-- The order of two rows in a column is that of their cells. -/
theorem compareIn?_of_cell? {cell cell' : Option column.type.Value}
    (hx : column.cell? x = some cell) (hy : column.cell? y = some cell') :
    o.compareIn? column x y =
      some (cellOrder o.nullOrder o.direction column.type.layout.order cell cell') := by
  rw [compareIn?, ColumnBuffer.isNull?_of_cell? hx, ColumnBuffer.isNull?_of_cell? hy]
  simp only [Option.bind_eq_bind, Option.bind_some, ColumnBuffer.order?_of_cell? hx hy]
  cases cell with
  | none => cases cell' <;> rfl
  | some v => cases cell' <;> rfl

/-! ### The columns of a chain -/

/-- Each of the columns is buffered, and has the row. -/
def InRange (columns : List ColumnBuffer) (slots : List Nat) (x : Address) : Prop :=
  ∀ slot ∈ slots, ∃ column, columns[slot]? = some column ∧ (column.cell? x).isSome

/-- Two rows tie in a column: both are null, or their values are equal in the order of values. -/
def Tie (columns : List ColumnBuffer) (slot : Nat) (x y : Address) : Prop :=
  ∃ column, columns[slot]? = some column ∧
    (column.cell? x = some none ∧ column.cell? y = some none ∨
      ∃ v w, column.cell? x = some (some v) ∧ column.cell? y = some (some w) ∧
        column.type.layout.order v w = .eq)

/-- The order of two rows in a column, of which a row that is not there counts as null. -/
def slotOrder (o : RowOrder) (columns : List ColumnBuffer) (slot : Nat) (x y : Address) :
    Ordering :=
  match columns[slot]? with
  | some column => cellOrder o.nullOrder o.direction column.type.layout.order
      (column.cell? x).join (column.cell? y).join
  | none => .eq

theorem slotOrder_of_cell? (hcolumn : columns[slot]? = some column)
    {cell cell' : Option column.type.Value} (hx : column.cell? x = some cell)
    (hy : column.cell? y = some cell') : o.slotOrder columns slot x y =
      cellOrder o.nullOrder o.direction column.type.layout.order cell cell' := by
  rw [slotOrder, hcolumn]
  simp only [hx, hy, Option.join_some]

theorem transCmp_slotOrder (o : RowOrder) (columns : List ColumnBuffer) (slot : Nat) :
    Std.TransCmp (o.slotOrder columns slot) := by
  have unfolded : o.slotOrder columns slot = fun x y => o.slotOrder columns slot x y := rfl
  rw [unfolded]
  unfold slotOrder
  cases columns[slot]? with
  | none => exact transCmp_lexOrder (List.forall_mem_nil (Std.TransCmp (α := Address)))
  | some column =>
    exact transCmp_comap (cellOrder o.nullOrder o.direction column.type.layout.order)
      fun x => (column.cell? x).join

/-- Rows that are in range are compared by the orders in the columns of the chain. -/
theorem compare?_of_inRange (hx : InRange columns o.slots x) (hy : InRange columns o.slots y) :
    o.compare? columns x y = some (lexOrder (o.slots.map (o.slotOrder columns)) x y) := by
  unfold compare?
  generalize o.slots = slots at hx hy
  induction slots with
  | nil => rfl
  | cons slot slots ih =>
    obtain ⟨⟨column, hcolumn, hcellx⟩, hx⟩ := List.forall_mem_cons.1 hx
    obtain ⟨⟨column', hcolumn', hcelly⟩, hy⟩ := List.forall_mem_cons.1 hy
    obtain rfl := Option.some.inj (hcolumn.symm.trans hcolumn')
    obtain ⟨cell, hcellx⟩ := Option.isSome_iff_exists.1 hcellx
    obtain ⟨cell', hcelly⟩ := Option.isSome_iff_exists.1 hcelly
    have hin : o.compareIn? column x y = some (o.slotOrder columns slot x y) := by
      rw [compareIn?_of_cell? hcellx hcelly, slotOrder_of_cell? hcolumn hcellx hcelly]
    rw [compareFrom?, hcolumn]
    simp only [Option.bind_eq_bind, Option.bind_some, hin, ih hx hy]
    show _ = some ((o.slotOrder columns slot x y).then _)
    cases o.slotOrder columns slot x y <;> rfl

theorem slotOrder_eq_iff (hx : InRange columns [slot] x) (hy : InRange columns [slot] y) :
    o.slotOrder columns slot x y = .eq ↔ Tie columns slot x y := by
  obtain ⟨column, hcolumn, hcellx⟩ := hx slot List.mem_cons_self
  obtain ⟨column', hcolumn', hcelly⟩ := hy slot List.mem_cons_self
  obtain rfl := Option.some.inj (hcolumn.symm.trans hcolumn')
  obtain ⟨cell, hcellx⟩ := Option.isSome_iff_exists.1 hcellx
  obtain ⟨cell', hcelly⟩ := Option.isSome_iff_exists.1 hcelly
  rw [slotOrder_of_cell? hcolumn hcellx hcelly, cellOrder_eq_iff, Tie]
  constructor
  · rintro (⟨rfl, rfl⟩ | ⟨v, w, rfl, rfl, h⟩)
    · exact ⟨column, hcolumn, Or.inl ⟨hcellx, hcelly⟩⟩
    · exact ⟨column, hcolumn, Or.inr ⟨v, w, hcellx, hcelly, h⟩⟩
  · rintro ⟨other, hother, htie⟩
    obtain rfl := Option.some.inj (hcolumn.symm.trans hother)
    rw [hcellx, hcelly] at htie
    simpa only [Option.some.injEq] using htie

theorem slotOrder_eq_iff_of_mem (hx : InRange columns slots x) (hy : InRange columns slots y)
    (hslot : slot ∈ slots) : o.slotOrder columns slot x y = .eq ↔ Tie columns slot x y :=
  slotOrder_eq_iff (List.forall_mem_singleton.2 (hx slot hslot))
    (List.forall_mem_singleton.2 (hy slot hslot))

theorem compare?_eq_iff (hx : InRange columns o.slots x) (hy : InRange columns o.slots y) :
    o.compare? columns x y = some .eq ↔ ∀ slot ∈ o.slots, Tie columns slot x y := by
  rw [compare?_of_inRange hx hy, Option.some.injEq, lexOrder_eq_iff, List.forall_mem_map]
  exact forall₂_congr fun slot hslot => slotOrder_eq_iff_of_mem hx hy hslot

/-- Where rows tie in the columns before one and not in it, the order of its cells decides. -/
theorem compare?_of_first (hx : InRange columns o.slots x) (hy : InRange columns o.slots y)
    {front back : List Nat} (hslots : o.slots = front ++ slot :: back)
    (hfront : ∀ before ∈ front, Tie columns before x y) (hcolumn : columns[slot]? = some column)
    {cell cell' : Option column.type.Value} (hcellx : column.cell? x = some cell)
    (hcelly : column.cell? y = some cell')
    (hne : cellOrder o.nullOrder o.direction column.type.layout.order cell cell' ≠ .eq) :
    o.compare? columns x y =
      some (cellOrder o.nullOrder o.direction column.type.layout.order cell cell') := by
  have hslot := slotOrder_of_cell? (o := o) hcolumn hcellx hcelly
  rw [← hslot] at hne ⊢
  rw [compare?_of_inRange hx hy, hslots, List.map_append, List.map_cons]
  refine congrArg some (lexOrder_append_cons (fun _ horder => ?_) hne)
  obtain ⟨before, hbefore, rfl⟩ := List.mem_map.1 horder
  have hmem : before ∈ o.slots := hslots ▸ List.mem_append_left _ hbefore
  exact (slotOrder_eq_iff_of_mem hx hy hmem).2 (hfront before hbefore)

/-- The comparison of rows by a chain of columns is total on the rows that are there, turns over
with the rows, and is transitive.  Rows tie exactly if they tie in every column.  Otherwise the
first column in which they do not tie decides: a null against a value by the null order alone, and
two values by their order, which is reversed where the direction is descending. -/
theorem compare?_preorder (chain : CompareChain) (nullOrder : NullOrder) (direction : Direction)
    (columns : List ColumnBuffer) {a b c : Address} (ha : InRange columns chain.slots a)
    (hb : InRange columns chain.slots b) (hc : InRange columns chain.slots c) :
    let compare := RowOrder.compare? ⟨chain.slots, nullOrder, direction⟩ columns
    (compare a b).isSome ∧ compare b a = (compare a b).map Ordering.swap ∧
      (compare a b ≠ some .gt → compare b c ≠ some .gt → compare a c ≠ some .gt) ∧
      (compare a b = some .eq → compare b c = some .eq → compare a c = some .eq) ∧
      (compare a b = some .eq ↔ ∀ slot ∈ chain.slots, Tie columns slot a b) ∧
      ∀ front slot back column, chain.slots = front ++ slot :: back →
        (∀ before ∈ front, Tie columns before a b) → columns[slot]? = some column →
        (∀ w, column.cell? a = some none → column.cell? b = some (some w) →
          compare a b = some (if nullOrder = .first then .lt else .gt)) ∧
        (∀ v, column.cell? a = some (some v) → column.cell? b = some none →
          compare a b = some (if nullOrder = .first then .gt else .lt)) ∧
        ∀ v w, column.cell? a = some (some v) → column.cell? b = some (some w) →
          column.type.layout.order v w ≠ .eq →
          compare a b = some (if direction = .ascending then column.type.layout.order v w
            else (column.type.layout.order v w).swap) := by
  intro compare
  let o : RowOrder := ⟨chain.slots, nullOrder, direction⟩
  let order := lexOrder (o.slots.map (o.slotOrder columns))
  have htrans : Std.TransCmp order := transCmp_lexOrder fun _ horder => by
    obtain ⟨slot, -, rfl⟩ := List.mem_map.1 horder
    exact transCmp_slotOrder o columns slot
  have hab : compare a b = some (order a b) := compare?_of_inRange (o := o) ha hb
  have hba : compare b a = some (order b a) := compare?_of_inRange (o := o) hb ha
  have hbc : compare b c = some (order b c) := compare?_of_inRange (o := o) hb hc
  have hac : compare a c = some (order a c) := compare?_of_inRange (o := o) ha hc
  refine ⟨hab ▸ rfl, ?_, fun h h' => ?_, fun h h' => ?_, compare?_eq_iff (o := o) ha hb,
    fun front slot back column hslots hfront hcolumn => ?_⟩
  · rw [hab, hba, htrans.eq_swap]
    rfl
  · rw [hab, ne_eq, Option.some.injEq] at h
    rw [hbc, ne_eq, Option.some.injEq] at h'
    rw [hac, ne_eq, Option.some.injEq]
    exact Ordering.isLE_iff_ne_gt.1
      (htrans.isLE_trans (Ordering.isLE_iff_ne_gt.2 h) (Ordering.isLE_iff_ne_gt.2 h'))
  · rw [hab] at h
    rw [hbc] at h'
    rw [hac, Std.TransCmp.eq_trans (Option.some.inj h) (Option.some.inj h')]
  · refine ⟨fun w hnull hvalue => ?_, fun v hvalue hnull => ?_, fun v w hv hw hne => ?_⟩
    · have hdecides := compare?_of_first (o := o) ha hb hslots hfront hcolumn hnull hvalue
        (by simp [cellOrder_eq_iff])
      cases nullOrder <;> exact hdecides
    · have hdecides := compare?_of_first (o := o) ha hb hslots hfront hcolumn hvalue hnull
        (by simp [cellOrder_eq_iff])
      cases nullOrder <;> exact hdecides
    · have hdecides := compare?_of_first (o := o) ha hb hslots hfront hcolumn hv hw
        (by simpa [cellOrder_eq_iff] using hne)
      cases direction <;> exact hdecides

/-! ### Rows that a null tells apart -/

/-- A column of floats and one of texts. -/
def measured : List ColumnBuffer :=
  [⟨.float64, #[.ofArray #[some (0x7FF8000000000000 : BitVec 64), none],
      .ofArray #[some (0xFFF0000000000001 : BitVec 64)]]⟩,
    ⟨.utf8, #[.ofArray #[some "b", some "a"], .ofArray #[none]]⟩]

/-- Two floats that are no numbers tie, so the null in the second column decides, whatever the
direction. -/
theorem compare?_measured :
    InRange measured [0, 1] ⟨0, 0⟩ ∧ InRange measured [0, 1] ⟨1, 0⟩ ∧
      RowOrder.compare? ⟨[0, 1], .first, .descending⟩ measured ⟨0, 0⟩ ⟨1, 0⟩ = some .gt := by
  have hx : InRange measured [0, 1] ⟨0, 0⟩ := by
    simp [InRange, measured, ColumnBuffer.cell?, Cells.get?, Cells.ofArray]
  have hy : InRange measured [0, 1] ⟨1, 0⟩ := by
    simp [InRange, measured, ColumnBuffer.cell?, Cells.get?, Cells.ofArray]
  have htie : Tie measured 0 ⟨0, 0⟩ ⟨1, 0⟩ :=
    ⟨_, rfl, Or.inr ⟨(0x7FF8000000000000 : BitVec 64), (0xFFF0000000000001 : BitVec 64), rfl, rfl,
      by decide⟩⟩
  obtain ⟨-, -, -, -, -, hfirst⟩ := compare?_preorder ⟨⟨0, .descending⟩, [⟨1, .descending⟩]⟩ .first
    .descending measured hx hy hx
  exact ⟨hx, hy, (hfirst [0] 1 [] _ rfl (List.forall_mem_singleton.2 htie) rfl).2.1 "b" rfl rfl⟩

end RowOrder

end Collate
