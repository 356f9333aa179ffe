import Collate.Engine.RecordBatch
import Collate.Engine.SortedRows
import Collate.Proofs.Answers

/-!
# Gathering rows

Rows are gathered column by column, and a column comes about unless its offsets do not count its
bytes (`Column.Counted`).  `SortedRows.columns?` says what the columns of a window are in any case;
the window is then these columns, or an overflow (`SortedRows.window_of_columns?`).
-/

namespace Collate

/-! ### The bytes of cells -/

namespace Layout

variable {l : Layout} {cells cells' : List (Option l.Value)}

theorem byteCount_nil (l : Layout) : l.byteCount [] = 0 := rfl

theorem byteCount_eq_sum (l : Layout) (cells : List (Option l.Value)) :
    l.byteCount cells = (cells.map fun cell => cell.elim 0 l.byteLength).sum := by
  induction cells with
  | nil => rfl
  | cons cell cells ih => rw [byteCount, ih, List.map_cons, List.sum_cons]

/-- Fewer cells have no more bytes. -/
theorem byteCount_le_of_sublist (h : cells.Sublist cells') :
    l.byteCount cells ≤ l.byteCount cells' := by
  rw [byteCount_eq_sum, byteCount_eq_sum]
  exact (h.map _).sum_le_sum fun _ _ => Nat.zero_le _

theorem byteCount_eq_of_perm (h : cells.Perm cells') : l.byteCount cells = l.byteCount cells' := by
  rw [byteCount_eq_sum, byteCount_eq_sum]
  exact (h.map _).sum_eq

/-- Numbers take no bytes in a container of bytes. -/
theorem byteCount_of_number {f : NumberFormat} (h : l = .number f) : l.byteCount cells = 0 := by
  subst h
  rw [byteCount_eq_sum]
  refine List.sum_eq_zero fun n hn => ?_
  obtain ⟨cell, -, rfl⟩ := List.mem_map.1 hn
  cases cell <;> rfl

end Layout

theorem Column.counted_ofArray_iff {t : ColumnType} {cells : Array (Option t.Value)} :
    (Column.ofArray (.column t) cells).Counted ↔ t.layout.byteCount cells.toList ≤ t.byteLimit :=
  Iff.rfl

/-- The offsets of a column count all bytes of a column of numbers. -/
theorem Column.counted_of_number {t : ColumnType} {f : NumberFormat} (h : t.layout = .number f)
    (cells : Array (Option t.Value)) : (Column.ofArray (.column t) cells).Counted := by
  rw [counted_ofArray_iff, Layout.byteCount_of_number h]
  exact Nat.zero_le _

/-- The offsets of all columns of a batch count their bytes. -/
def RecordBatch.Counted (batch : RecordBatch) : Prop := ∀ c ∈ batch.columns, c.Counted

instance : DecidablePred RecordBatch.Counted := fun batch => List.decidableBAll _ batch.columns

/-! ### Windows -/

/-- Rows that all buffers hold are gathered, unless the bytes of a column are too many. -/
theorem ColumnBuffer.mapM_gather {buffers : List ColumnBuffer} {rows : List Address}
    {columns : List Column} (h : buffers.mapM (·.column? rows) = some columns) :
    buffers.mapM (·.gather rows) =
      if ∀ c ∈ columns, c.Counted then .ok columns else .error .overflow := by
  rw [mapM_eq_some_iff] at h
  induction h with
  | nil => rfl
  | cons hb _ ih =>
    rw [List.mapM_cons, ih, gather, hb]
    simp only [List.forall_mem_cons, ite_and]
    split_ifs <;> rfl

namespace SortedRows

variable {s : SortedRows} {start stop : Nat} {columns : List Column}

/-- The columns of the rows from a position up to another, whether or not their offsets count their
bytes. -/
def columns? (s : SortedRows) (start stop : Nat) : Option (List Column) :=
  if start ≤ stop ∧ stop ≤ s.size then
    match s with
    | addresses columns rows => columns.mapM (·.column? (rows.extract start stop).toList)
    | values type _ isNumber run =>
      some [.ofArray (.column type) (Layout.ofWords isNumber (run.emit start stop))]
  else none

/-- A window is the columns of its rows, unless the bytes of one of them are too many. -/
theorem window_of_columns? (h : s.columns? start stop = some columns) :
    s.window start stop =
      if ∀ c ∈ columns, c.Counted then .ok columns else .error .overflow := by
  unfold columns? at h
  unfold window
  split_ifs at h with hrange
  · rw [if_pos hrange]
    cases s with
    | addresses buffers rows => exact ColumnBuffer.mapM_gather h
    | values type format isNumber run =>
      cases h
      rw [if_pos (by simpa using Column.counted_of_number isNumber _)]

/-- The windows of a column of numbers are its cells, and outside the rows there are none. -/
theorem window_of_number {t : ColumnType} {f : NumberFormat} (h : t.layout = .number f)
    {cells : Array (Option t.Value)} {n : Nat} (hsize : s.size = n)
    (hcolumns : s.columns? start stop =
      if start ≤ stop ∧ stop ≤ n then some [.ofArray (.column t) cells] else none) :
    s.window start stop =
      if start ≤ stop ∧ stop ≤ n then .ok [.ofArray (.column t) cells] else .error .absent := by
  subst hsize
  split_ifs at hcolumns ⊢ with hrange
  · rw [window_of_columns? hcolumns, if_pos (by simpa using Column.counted_of_number h cells)]
  · exact if_neg hrange

end SortedRows

end Collate
