import Collate.Row.Column
import Collate.SortSpec

/-!
# The order of rows

Rows are compared by one column after the other until two cells differ.  Null cells go where the
null order puts them, whatever the direction; values follow the direction.
-/

namespace Collate

/-- How rows are compared. -/
structure RowOrder where
  /-- the columns that are compared, in order -/
  slots : List Nat
  nullOrder : NullOrder
  direction : Direction
  deriving DecidableEq, Repr

namespace NullOrder

/-- The order of a null before a value. -/
def nullAgainstValue : NullOrder → Ordering
  | first => .lt
  | last => .gt

end NullOrder

namespace RowOrder

/-- The order of two rows in one column. -/
def compareIn? (o : RowOrder) (column : ColumnBuffer) (x y : Address) : Option Ordering := do
  match ← column.isNull? x, ← column.isNull? y with
  | true, true => return .eq
  | true, false => return o.nullOrder.nullAgainstValue
  | false, true => return o.nullOrder.nullAgainstValue.swap
  | false, false => return o.direction.apply (← column.order? x y)

/-- The order of two rows in the columns that are left. -/
def compareFrom? (o : RowOrder) (columns : List ColumnBuffer) (x y : Address) :
    List Nat → Option Ordering
  | [] => some .eq
  | slot :: slots => do
    let column ← columns[slot]?
    match ← o.compareIn? column x y with
    | .eq => o.compareFrom? columns x y slots
    | decided => return decided

/-- The order of two rows, if it can be told from columns and rows that are there. -/
def compare? (o : RowOrder) (columns : List ColumnBuffer) (x y : Address) : Option Ordering :=
  o.compareFrom? columns x y o.slots

/-- Sorts rows; rows that tie keep their order.  Two rows that the order cannot tell apart meet in
the end, so the sort fails exactly where a pair of neighbours cannot be compared. -/
def sort? (o : RowOrder) (columns : List ColumnBuffer) (rows : List Address) :
    Option (List Address) :=
  let sorted := rows.mergeSort fun x y => o.compare? columns x y != some .gt
  if (sorted.zip sorted.tail).all fun (x, y) => (o.compare? columns x y).isSome then some sorted
  else none

end RowOrder

end Collate
