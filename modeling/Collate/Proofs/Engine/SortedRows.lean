import Collate.Proofs.Engine.InPlaceEngine
import Collate.Proofs.Engine.IndexEngine

/-!
# The rows of a sort

What the rows of a sort show, whichever engine made them: `Template.sortedColumn` is a column in
sorted order, and `SortedRows.Sorted` says that rows have the columns of batches in that order, in
every window.  The index engine shows in each column the cells that its addresses lead to
(`IndexSorter.columns?_result`), the in-place engine the sorted cells of its only column
(`InPlaceSorter.sorted_values`).
-/

namespace Collate

open Input

variable {held : List (List Column)}

theorem perm_sortedCells {α : Type} (o : NullOrder) (direction : Direction)
    (order : α → α → Ordering) (cells : List (Option α)) :
    (sortedCells o direction order cells).Perm cells := by
  have values : ((cells.reduceOption.mergeSort fun v w =>
      direction.apply (order v w) != .gt).map some).Perm
        (cells.filter fun cell => !cell.isNone) := by
    rw [filter_isSome_eq_map]
    exact (List.mergeSort_perm _ _).map some
  exact (NullOrder.arrange_perm.trans ((List.Perm.refl _).append values)).trans
    (List.filter_append_perm _ _)

theorem Input.length_columnCells {slot : Nat} {type : ColumnType}
    (h : ∀ columns ∈ held, (cells columns slot type).size = rowCount columns) :
    (columnCells held slot type).length = totalRows held := by
  rw [columnCells, List.length_flatMap, totalRows]
  exact congrArg List.sum (List.map_congr_left fun columns hm => h columns hm)

namespace Template

variable {t : Template} {slot : Nat} {f : FieldSlot}

/-! ### Columns in sorted order -/

/-- The cells of a column in sorted order: those of the sorted rows, or of the column sorted by
itself. -/
def sortedColumn (t : Template) (batches : List (List Column)) (slot : Nat) (type : ColumnType) :
    List (Option type.Value) :=
  match t.strategy with
  | .indexed => (t.sortedAddresses batches).map (cell batches slot type)
  | .inPlace => sortedCells t.policy.nullOrder t.policy.direction type.layout.order
      (columnCells batches slot type)

/-- The columns in sorted order, from a position up to another. -/
def sortedWindow (t : Template) (batches : List (List Column)) (start stop : Nat) : List Column :=
  t.fields.mapIdx fun slot (f : FieldSlot) =>
    .ofArray (.column f.type) ((t.sortedColumn batches slot f.type).toArray.extract start stop)

/-- What an engine writes when it has sorted. -/
def written (t : Template) (batches : List (List Column)) : Option (List UInt8) :=
  match t.strategy with
  | .indexed => some ((t.sortedAddresses batches).flatMap Address.bytes)
  | .inPlace => none

/-- The batches that an engine can hold: the index engine has to number them. -/
structure Held (t : Template) (batches : List (List Column)) : Prop where
  fits : ∀ columns ∈ batches, t.Fits columns
  room : t.strategy = .indexed → batches.length < 2 ^ 32

theorem Held.of_eq {t' : Template} (h : t.Held held) (hfields : t'.fields = t.fields)
    (hstrategy : t'.strategy = t.strategy) : t'.Held held :=
  ⟨fun columns hm => (h.fits columns hm).of_fields hfields, hstrategy ▸ h.room⟩

theorem Held.addressable (h : t.Held held) (hs : t.strategy = .indexed) : Addressable held :=
  ⟨h.room hs, fun columns hm => (h.fits columns hm).rows_lt⟩

/-- A column in sorted order has the cells of the column. -/
theorem Held.perm_sortedColumn (h : t.Held held) (hf : t.fields[slot]? = some f) :
    (t.sortedColumn held slot f.type).Perm (columnCells held slot f.type) := by
  unfold sortedColumn
  cases hs : t.strategy with
  | indexed =>
    have hcells := map_cell_addresses (h.addressable hs) fun columns hm =>
      (h.fits columns hm).size_cells hf
    exact hcells ▸ (perm_sortedAddresses t held).map _
  | inPlace => exact perm_sortedCells _ _ _ _

theorem Held.length_sortedColumn (h : t.Held held) (hf : t.fields[slot]? = some f) :
    (t.sortedColumn held slot f.type).length = totalRows held := by
  rw [(h.perm_sortedColumn hf).length_eq]
  exact length_columnCells fun columns hm => (h.fits columns hm).size_cells hf

end Template

/-! ### Rows that show them -/

/-- The rows are those of batches in sorted order. -/
structure SortedRows.Sorted (rows : SortedRows) (t : Template) (batches : List (List Column)) :
    Prop where
  size : rows.size = totalRows batches
  columns? : ∀ start stop, start ≤ stop → stop ≤ totalRows batches →
    rows.columns? start stop = some (t.sortedWindow batches start stop)
  written : Sorter.writtenAddresses rows = t.written batches

variable {kernel : LoadedKernel}

theorem IndexSorter.size_result (kernel : LoadedKernel) (held : List (List Column))
    (reservation : Nat) : (result kernel held reservation).rows.size = Input.totalRows held := by
  show (kernel.template.sortedAddresses held).toArray.size = _
  rw [List.size_toArray, (Template.perm_sortedAddresses _ _).length_eq, length_addresses]

/-- The windows of what an index engine makes show the cells that the sorted addresses lead to. -/
theorem IndexSorter.columns?_result (hfit : ∀ columns ∈ held, kernel.template.Fits columns)
    (hb : Addressable held) (reservation start stop : Nat) :
    (result kernel held reservation).rows.columns? start stop =
      if start ≤ stop ∧ stop ≤ Input.totalRows held then
        some (kernel.template.fields.mapIdx fun slot (f : FieldSlot) =>
          .ofArray (.column f.type) (((kernel.template.sortedAddresses held).map
            (cell held slot f.type)).toArray.extract start stop))
      else none := by
  have hrows : ∀ a ∈ (kernel.template.sortedAddresses held).extract start stop,
      HasRow held a := by
    intro a ha
    rw [List.extract_eq_take_drop] at ha
    exact (mem_addresses hb).1 ((Template.perm_sortedAddresses _ _).mem_iff.1
      (List.mem_of_mem_drop (List.mem_of_mem_take ha)))
  have column : ∀ e ∈ kernel.template.fields.zipIdx, (buffer held e.2 e.1.type).column?
      ((kernel.template.sortedAddresses held).toArray.extract start stop).toList =
        some (.ofArray (.column e.1.type) (((kernel.template.sortedAddresses held).map
          (cell held e.2 e.1.type)).toArray.extract start stop)) := by
    rintro ⟨f, slot⟩ he
    have hf : kernel.template.fields[slot]? = some f := by
      simpa using List.mem_zipIdx_iff_getElem?.1 he
    rw [Array.toList_extract, column?_buffer (fun columns hm => (hfit columns hm).size_cells hf)
      hrows]
    simp only [List.extract_eq_take_drop, List.map_take, List.map_drop, List.extract_toArray]
  unfold SortedRows.columns?
  rw [size_result]
  split_ifs with h
  · show (kernel.template.buffers held).mapM _ = _
    rw [Template.buffers, List.mapIdx_eq_zipIdx_map, List.mapIdx_eq_zipIdx_map, List.mapM_map]
    exact mapM_eq_some_map column
  · rfl

theorem IndexSorter.sorted_result (hs : kernel.template.strategy = .indexed)
    (h : kernel.template.Held held) (reservation : Nat) :
    (result kernel held reservation).rows.Sorted kernel.template held where
  size := size_result kernel held reservation
  columns? start stop hstart hstop := by
    rw [columns?_result h.fits (h.addressable hs), if_pos ⟨hstart, hstop⟩, Template.sortedWindow]
    simp only [Template.sortedColumn, hs]
  written := by
    rw [Template.written, hs]
    rfl

theorem InPlaceSorter.sorted_values {f : FieldSlot} {format : NumberFormat}
    (hs : kernel.template.strategy = .inPlace) (hfields : kernel.template.fields = [f])
    (isNumber : f.type.layout = .number format) (h : kernel.template.Held held)
    {run : SortedRun format} (hcells : run.cells = (sortedCells kernel.template.policy.nullOrder
      kernel.template.policy.direction format.order (heldWords isNumber held)).toArray) :
    (SortedRows.values f.type format isNumber run).Sorted kernel.template held := by
  have hf : kernel.template.fields[0]? = some f := by rw [hfields]; rfl
  have length := length_columnCells fun columns hm => (h.fits columns hm).size_cells hf
  refine ⟨(size_values hcells).trans length, fun start stop hstart hstop => ?_, ?_⟩
  · rw [columns?_values hcells, if_pos ⟨hstart, hstop.trans_eq length.symm⟩, Template.sortedWindow,
      hfields, List.mapIdx_cons, List.mapIdx_nil, Template.sortedColumn, hs]
  · rw [Template.written, hs]
    rfl

end Collate
