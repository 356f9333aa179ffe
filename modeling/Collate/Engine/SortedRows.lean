import Collate.Row.Column
import Collate.Template.Basic

/-!
# Sorted rows

What a sort leaves behind for its readers: either the buffered columns with the addresses of the
rows in sorted order, or the sorted values of one column with the positions that are null.  Both
give any window of their rows as columns.
-/

namespace Collate

/-- Sorted values; those at null positions are left over and never shown. -/
structure SortedRun (f : NumberFormat) where
  values : Array f.Word
  nullRange : Range

namespace SortedRun

variable {f : NumberFormat}

/-- The cells from a position up to another, segment by segment: a segment ends where the nulls
begin or end. -/
def emit (run : SortedRun f) (pos stop : Nat) : Array (Option f.Word) :=
  if pos < stop then
    if run.nullRange.start ≤ pos ∧ pos < run.nullRange.stop then
      let next := min stop run.nullRange.stop
      Array.replicate (next - pos) none ++ run.emit next stop
    else
      let next := if pos < run.nullRange.start then min stop run.nullRange.start else stop
      (run.values.extract pos next).map some ++ run.emit next stop
  else #[]
termination_by stop - pos
decreasing_by
  · omega
  · split <;> omega

end SortedRun

/-- What a sort leaves behind. -/
inductive SortedRows
  | addresses (columns : List ColumnBuffer) (rows : Array Address)
  | values (type : ColumnType) (format : NumberFormat) (isNumber : type.layout = .number format)
    (run : SortedRun format)

namespace SortedRows

/-- How many rows there are. -/
def size : SortedRows → Nat
  | addresses _ rows => rows.size
  | values _ _ _ run => run.values.size

/-- The columns of the rows from a position up to another. -/
def window (s : SortedRows) (start stop : Nat) : Except GatherError (List Column) :=
  if start ≤ stop ∧ stop ≤ s.size then
    match s with
    | addresses columns rows => columns.mapM (·.gather (rows.extract start stop).toList)
    | values type _ isNumber run =>
      .ok [.ofArray (.column type) (Layout.ofWords isNumber (run.emit start stop))]
  else .error .absent

end SortedRows

/-- Sorted rows with the number of the reservation that holds their bytes. -/
structure SortedResult where
  rows : SortedRows
  reservation : Nat

/-- Sorts the positions of a range and leaves the others as they are. -/
def sortRange? {α : Type} (range : Range) (sort : List α → Option (List α)) (items : Array α) :
    Option (Array α) :=
  if range.start ≤ range.stop ∧ range.stop ≤ items.size then do
    let sorted ← sort (items.extract range.start range.stop).toList
    return items.extract 0 range.start ++ sorted.toArray ++ items.extract range.stop items.size
  else none

end Collate
