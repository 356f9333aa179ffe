import Collate.Engine.IndexSorter
import Collate.Proofs.Engine.Input
import Collate.Proofs.Row.Comparison
import Collate.Proofs.Template.Valid

/-!
# Buffered columns

The buffers that an index engine holds after batches (`Template.buffers`).  Looking a row up in a
buffer is looking it up in the batches (`cell?_buffer`, `isNull?_buffer`), and the comparison of two
rows over the buffers is their order over the batches, `Template.rowOrder`
(`compare?_buffers`).  That order is a total preorder.
-/

namespace Collate

open Input Std

theorem mapM_eq_some_map {α β : Type} {f : α → Option β} {g : α → β} {l : List α}
    (h : ∀ a ∈ l, f a = some (g a)) : l.mapM f = some (l.map g) := by
  induction l with
  | nil => rfl
  | cons a l ih =>
    rw [List.forall_mem_cons] at h
    rw [List.mapM_cons, h.1, ih h.2]
    rfl

namespace Input

variable {batches : List (List Column)} {columns : List Column} {slot : Nat} {t : ColumnType}
  {a : Address}

/-- The buffer of one column of all batches. -/
def buffer (batches : List (List Column)) (slot : Nat) (t : ColumnType) : ColumnBuffer :=
  ⟨t, (batches.map fun columns => cells columns slot t).toArray⟩

theorem getElem?_batches_buffer (batches : List (List Column)) (slot : Nat) (t : ColumnType)
    (i : Nat) : (buffer batches slot t).batches[i]? =
      (batches[i]?.map fun columns => cells columns slot t : Option (Cells t.Value)) := by
  show (batches.map fun columns => cells columns slot t).toArray[i]? = _
  rw [List.getElem?_toArray, List.getElem?_map]

theorem get?_cells (h : ∀ columns ∈ batches, (cells columns slot t).size = rowCount columns)
    (hcolumns : batches[a.batch.toNat]? = some columns) (hrow : a.row.toNat < rowCount columns) :
    (cells columns slot t).get? a.row.toNat = some (cell batches slot t a) := by
  have hsize : a.row.toNat < (cells columns slot t).toArray.size :=
    lt_of_lt_of_eq hrow (h columns (List.mem_of_getElem? hcolumns)).symm
  simp [cell, Cells.get?, hcolumns, hsize]

theorem cell?_buffer (h : ∀ columns ∈ batches, (cells columns slot t).size = rowCount columns)
    (ha : HasRow batches a) : (buffer batches slot t).cell? a = some (cell batches slot t a) := by
  obtain ⟨columns, hcolumns, hrow⟩ := ha
  rw [ColumnBuffer.cell?, getElem?_batches_buffer, hcolumns]
  exact get?_cells h hcolumns hrow

theorem isNull?_buffer (h : ∀ columns ∈ batches, (cells columns slot t).size = rowCount columns)
    (ha : HasRow batches a) :
    (buffer batches slot t).isNull? a = some (cell batches slot t a).isNone :=
  ColumnBuffer.isNull?_of_cell? (cell?_buffer h ha)

theorem stored?_buffer (h : ∀ columns ∈ batches, (cells columns slot t).size = rowCount columns)
    (ha : HasRow batches a) :
    (buffer batches slot t).stored? a = some ((cell batches slot t a).getD t.layout.zero) :=
  ColumnBuffer.stored?_of_cell? (cell?_buffer h ha)

theorem column?_buffer (h : ∀ columns ∈ batches, (cells columns slot t).size = rowCount columns)
    {rows : List Address} (hrows : ∀ a ∈ rows, HasRow batches a) :
    (buffer batches slot t).column? rows =
      some (.ofArray (.column t) (rows.map (cell batches slot t)).toArray) := by
  have lookup : rows.mapM (buffer batches slot t).cell? = some (rows.map (cell batches slot t)) :=
    mapM_eq_some_map fun a ha => cell?_buffer h (hrows a ha)
  rw [ColumnBuffer.column?, lookup]
  rfl

/-- Row by row, the cells of a column are those of its batches. -/
theorem map_cell_addresses (hb : Addressable batches)
    (h : ∀ columns ∈ batches, (cells columns slot t).size = rowCount columns) :
    (addresses batches).map (cell batches slot t) = columnCells batches slot t := by
  have batch : ∀ e ∈ batches.zipIdx,
      (batchAddresses e.2 (rowCount e.1)).map (cell batches slot t) =
        (cells e.1 slot t).toArray.toList := by
    rintro ⟨columns, batch⟩ he
    have hcolumns := getElem?_of_mem_zipIdx he
    have hm := List.mem_of_getElem? hcolumns
    have hbatch := toNat_ofNat_of_lt ((batch_lt_of_mem_zipIdx he).trans hb.batches_lt)
    rw [batchAddresses, List.map_map]
    refine List.ext_getElem? fun row => ?_
    by_cases hrow : row < rowCount columns
    · have hlt := toNat_ofNat_of_lt (hrow.trans (hb.rows_lt columns hm))
      have hget := get?_cells (a := ⟨.ofNat batch, .ofNat row⟩) h (by rwa [hbatch]) (by rwa [hlt])
      rw [Cells.get?, hlt] at hget
      rw [List.getElem?_map, List.getElem?_range hrow, Array.getElem?_toList, hget]
      rfl
    · have hge : (cells columns slot t).toArray.size ≤ row :=
        le_of_eq_of_le (h columns hm) (Nat.le_of_not_lt hrow)
      simp [hrow, hge]
  have whole : (batches.zipIdx.flatMap fun e => (cells e.1 slot t).toArray.toList) =
      columnCells batches slot t := by
    conv_rhs => rw [columnCells, ← List.zipIdx_map_fst 0 batches, List.flatMap_map]
  rw [addresses, List.map_flatMap, ← whole]
  exact List.flatMap_congr batch

theorem countP_columnCells
    (h : ∀ columns ∈ batches, (cells columns slot t).nullCount = nullCount columns slot) :
    (columnCells batches slot t).countP Option.isNone =
      (batches.map fun columns => nullCount columns slot).sum := by
  rw [columnCells, List.countP_flatMap]
  refine congrArg List.sum (List.map_congr_left fun columns hm => ?_)
  rw [← h columns hm]
  exact Array.countP_toList

end Input

/-- Columns of the types of their buffers are all added. -/
theorem IndexSorter.pushAll_eq_zipWith {buffers : List ColumnBuffer} {columns : List Column}
    (length : buffers.length = columns.length)
    (types : ∀ e ∈ buffers.zip columns, e.2.type = .column e.1.type) :
    pushAll buffers columns = (.ok (), buffers.zipWith
      (fun b c => ⟨b.type, b.batches.push (c.cellsAs b.type)⟩) columns) := by
  induction buffers generalizing columns with
  | nil => rfl
  | cons b buffers ih =>
    cases columns with
    | nil => simp at length
    | cons c columns =>
      rw [List.zip_cons_cons, List.forall_mem_cons] at types
      have push : b.push? c = some ⟨b.type, b.batches.push (c.cellsAs b.type)⟩ := by
        rw [ColumnBuffer.push?, dif_pos types.1, Column.cellsAs_eq_cellsOf types.1]
      rw [pushAll, push]
      simp only [ih (by simpa using length) types.2, List.zipWith_cons_cons]

namespace Template

variable {t : Template} {batches : List (List Column)} {columns : List Column} {x y : Address}

/-- The buffers of all columns of the batches. -/
def buffers (t : Template) (batches : List (List Column)) : List ColumnBuffer :=
  t.fields.mapIdx fun slot f => buffer batches slot f.type

theorem getElem?_buffers (t : Template) (batches : List (List Column)) (slot : Nat) :
    (t.buffers batches)[slot]? = t.fields[slot]?.map fun f => buffer batches slot f.type := by
  rw [buffers, List.getElem?_mapIdx]

theorem buffers_nil (t : Template) : t.buffers [] = t.fields.map fun f => .ofType f.type := by
  refine List.ext_getElem? fun slot => ?_
  rw [getElem?_buffers, List.getElem?_map]
  rfl

theorem pushAll_buffers (batches : List (List Column)) (h : t.Fits columns) :
    IndexSorter.pushAll (t.buffers batches) columns =
      (.ok (), t.buffers (batches ++ [columns])) := by
  have types : ∀ e ∈ (t.buffers batches).zip columns, e.2.type = .column e.1.type := by
    rintro ⟨b, c⟩ he
    obtain ⟨slot, hslot⟩ := List.mem_iff_getElem?.1 he
    obtain ⟨hbuffer, hc⟩ := List.getElem?_zip_eq_some.1 hslot
    rw [getElem?_buffers, Option.map_eq_some_iff] at hbuffer
    obtain ⟨f, hf, rfl⟩ := hbuffer
    exact (h.column slot f c hf hc).1
  have length : (t.buffers batches).length = columns.length := by
    rw [buffers, List.length_mapIdx, h.length_eq]
  rw [IndexSorter.pushAll_eq_zipWith length types]
  refine congrArg (Prod.mk _) (List.ext_getElem? fun slot => ?_)
  rw [List.getElem?_zipWith', getElem?_buffers, getElem?_buffers]
  cases hf : t.fields[slot]? with
  | none => rfl
  | some f =>
    obtain ⟨c, hc, -⟩ := h.getElem? hf
    rw [hc]
    simp [buffer, cells, hc]

/-! ### The order of rows -/

/-- The order of rows in one column. -/
def keyOrder (t : Template) (batches : List (List Column)) (slot : Nat) (x y : Address) :
    Ordering :=
  match t.fields[slot]? with
  | some f => cellOrder t.policy.nullOrder t.policy.direction f.type.layout.order
      (cell batches slot f.type x) (cell batches slot f.type y)
  | none => .eq

/-- The order of rows: by the first key in which they differ. -/
def rowOrder (t : Template) (batches : List (List Column)) : Address → Address → Ordering :=
  lexOrder (t.keys.map (t.keyOrder batches))

theorem transCmp_keyOrder (t : Template) (batches : List (List Column)) (slot : Nat) :
    TransCmp (t.keyOrder batches slot) := by
  have unfolded : t.keyOrder batches slot = fun x y => t.keyOrder batches slot x y := rfl
  rw [unfolded]
  unfold keyOrder
  cases t.fields[slot]? with
  | none => exact transCmp_lexOrder (List.forall_mem_nil (TransCmp (α := Address)))
  | some f =>
    exact transCmp_comap (cellOrder t.policy.nullOrder t.policy.direction f.type.layout.order)
      fun a => cell batches slot f.type a

instance (t : Template) (batches : List (List Column)) : TransCmp (t.rowOrder batches) := by
  refine transCmp_lexOrder fun order horder => ?_
  obtain ⟨slot, -, rfl⟩ := List.mem_map.1 horder
  exact transCmp_keyOrder t batches slot

theorem compareIn?_buffer {o : RowOrder} {slot : Nat} {type : ColumnType}
    (h : ∀ columns ∈ batches, (cells columns slot type).size = rowCount columns)
    (hx : HasRow batches x) (hy : HasRow batches y) :
    o.compareIn? (buffer batches slot type) x y = some (cellOrder o.nullOrder o.direction
      type.layout.order (cell batches slot type x) (cell batches slot type y)) :=
  RowOrder.compareIn?_of_cell? (cell?_buffer h hx) (cell?_buffer h hy)

theorem compareFrom?_buffers {o : RowOrder} (hfit : ∀ columns ∈ batches, t.Fits columns)
    (hnull : o.nullOrder = t.policy.nullOrder) (hdirection : o.direction = t.policy.direction)
    (hx : HasRow batches x) (hy : HasRow batches y) {slots : List Nat}
    (hslots : ∀ slot ∈ slots, slot < t.fields.length) :
    o.compareFrom? (t.buffers batches) x y slots =
      some (lexOrder (slots.map (t.keyOrder batches)) x y) := by
  induction slots with
  | nil => rfl
  | cons slot slots ih =>
    rw [List.forall_mem_cons] at hslots
    have hf : t.fields[slot]? = some t.fields[slot] := List.getElem?_eq_getElem hslots.1
    have hsize : ∀ columns ∈ batches, (cells columns slot t.fields[slot].type).size =
        rowCount columns := fun columns hm => (hfit columns hm).size_cells hf
    have hkey : o.compareIn? (buffer batches slot t.fields[slot].type) x y =
        some (t.keyOrder batches slot x y) := by
      rw [compareIn?_buffer hsize hx hy, keyOrder, hf, hnull, hdirection]
    rw [RowOrder.compareFrom?, getElem?_buffers, hf, ih hslots.2]
    simp only [Option.map_some, Option.bind_eq_bind, Option.bind_some, hkey]
    show _ = some ((t.keyOrder batches slot x y).then _)
    cases t.keyOrder batches slot x y <;> rfl

/-- Over the buffers, two rows compare by the row order. -/
theorem compare?_buffers (hv : t.Valid) (hfit : ∀ columns ∈ batches, t.Fits columns)
    (hx : HasRow batches x) (hy : HasRow batches y) :
    RowOrder.compare? ⟨t.comparator.slots, t.policy.nullOrder, t.policy.direction⟩
      (t.buffers batches) x y = some (t.rowOrder batches x y) := by
  rw [hv.comparatorSlots]
  exact compareFrom?_buffers hfit rfl rfl hx hy hv.keys

end Template

end Collate
