import Collate.Row.Address
import Collate.Row.Cells
import Collate.Row.RadixSort
import Collate.Row.SortKey
import Collate.Schema.DataType
import Collate.Text.Bytes

/-!
# Columns

A column has cells with values of its type or null; texts and bytes it stores one behind the other,
under offsets that count only so far (`Column.Counted`).  A column buffer holds the columns of one
field from several batches, and answers questions about its rows by their addresses.  An answer for
which a row is needed that the buffer does not hold is `none`.
-/

namespace Collate

namespace Layout

/-- A value of a layout. -/
def Value : Layout → Type
  | flag => Bool
  | number f => f.Word
  | text => String
  | bytes => List UInt8

/-- What is stored where a column is null. -/
def zero : (l : Layout) → l.Value
  | flag => false
  | number f => (0 : f.Word)
  | text => ""
  | bytes => ([] : List UInt8)

instance : (l : Layout) → DecidableEq l.Value
  | flag => inferInstanceAs (DecidableEq Bool)
  | number f => inferInstanceAs (DecidableEq f.Word)
  | text => inferInstanceAs (DecidableEq String)
  | bytes => inferInstanceAs (DecidableEq (List UInt8))

/-- The order of bytes: by the first that differs, and the shorter before its extensions. -/
def orderBytes : List UInt8 → List UInt8 → Ordering
  | [], [] => .eq
  | [], _ :: _ => .lt
  | _ :: _, [] => .gt
  | a :: as, b :: bs => (compare a.toNat b.toNat).then (orderBytes as bs)

/-- The order of values. -/
def order : (l : Layout) → l.Value → l.Value → Ordering
  | flag, a, b => compare (Bool.toNat a) (Bool.toNat b)
  | number f, a, b => f.order a b
  | text, a, b => orderBytes (Text.bytes a) (Text.bytes b)
  | bytes, a, b => orderBytes a b

/-- The number by which a radix sort orders values, for layouts of fixed width. -/
def key? : (l : Layout) → Option (l.Value → Nat)
  | flag => some Bool.toNat
  | number f => some fun w => (f.sortKey w).toNat
  | text | bytes => none

/-- The bytes that a value takes in a container of bytes. -/
def byteLength : (l : Layout) → l.Value → Nat
  | flag, _ | number _, _ => 0
  | text, s => s.utf8ByteSize
  | bytes, bs => bs.length

/-- The bytes that cells take in a container of bytes. -/
def byteCount (l : Layout) : List (Option l.Value) → Nat
  | [] => 0
  | cell :: cells => cell.elim 0 l.byteLength + byteCount l cells

end Layout

/-- The cells of a layout of numbers as words. -/
def Layout.words {l : Layout} {f : NumberFormat} (h : l = .number f)
    (cells : Array (Option l.Value)) : Array (Option f.Word) :=
  (h ▸ cells : Array (Option (Layout.number f).Value))

/-- Words as the cells of a layout of numbers. -/
def Layout.ofWords {l : Layout} {f : NumberFormat} (h : l = .number f)
    (words : Array (Option f.Word)) : Array (Option l.Value) :=
  h ▸ (words : Array (Option (Layout.number f).Value))

/-- A value of a column type. -/
abbrev ColumnType.Value (t : ColumnType) : Type := t.layout.Value

/-- A value of a declared type; of a type that cannot be sorted there are none. -/
def DataType.Value : DataType → Type
  | .column t => t.Value
  | .other _ => Empty

/-- A column with a declared type. -/
structure Column where
  type : DataType
  cells : Cells type.Value

namespace Column

/-- The column of an array of cells. -/
def ofArray (type : DataType) (cells : Array (Option type.Value)) : Column := ⟨type, .ofArray cells⟩

/-- How many rows a column has. -/
def length (c : Column) : Nat := c.cells.size

/-- How many rows are null. -/
def nullCount (c : Column) : Nat := c.cells.nullCount

/-- The offsets of a column count the bytes of its values. -/
def Counted : Column → Prop
  | ⟨.column t, cells⟩ => t.layout.byteCount cells.toArray.toList ≤ t.byteLimit
  | ⟨.other _, _⟩ => True

instance : (c : Column) → Decidable c.Counted
  | ⟨.column t, cells⟩ =>
    inferInstanceAs (Decidable (t.layout.byteCount cells.toArray.toList ≤ t.byteLimit))
  | ⟨.other _, _⟩ => inferInstanceAs (Decidable True)

/-- The cells of a column of a known type. -/
def cellsOf (c : Column) {t : ColumnType} (h : c.type = .column t) : Cells t.Value :=
  (h ▸ c.cells : Cells (DataType.column t).Value)

/-- So many rows of a column from a row on, if they are there. -/
def slice? (c : Column) (offset length : Nat) : Option Column :=
  (c.cells.slice? offset length).map fun cells => ⟨c.type, cells⟩

end Column

/-- Why rows are not gathered into a column. -/
inductive GatherError
  /-- the buffer does not hold a row -/
  | absent
  /-- the values have more bytes than the offsets of the column count -/
  | overflow
  deriving DecidableEq, Repr

/-- The columns of one field, batch by batch. -/
structure ColumnBuffer where
  type : ColumnType
  batches : Array (Cells type.Value) := #[]

namespace ColumnBuffer

/-- An empty buffer. -/
def ofType (type : ColumnType) : ColumnBuffer := { type }

/-- Adds the column of the next batch, if it has the type of the buffer. -/
def push? (b : ColumnBuffer) (c : Column) : Option ColumnBuffer :=
  if h : c.type = .column b.type then
    some { b with batches := b.batches.push (c.cellsOf h) }
  else none

/-- The cell of a row. -/
def cell? (b : ColumnBuffer) (a : Address) : Option (Option b.type.Value) :=
  b.batches[a.batch.toNat]?.bind fun cells => cells.get? a.row.toNat

/-- A row is null. -/
def isNull? (b : ColumnBuffer) (a : Address) : Option Bool :=
  b.batches[a.batch.toNat]?.bind fun cells => cells.isNull? a.row.toNat

/-- What is stored for a row, null or not. -/
def stored? (b : ColumnBuffer) (a : Address) : Option b.type.Value :=
  (b.cell? a).map fun cell => cell.getD b.type.layout.zero

/-- The order of what is stored for two rows. -/
def order? (b : ColumnBuffer) (x y : Address) : Option Ordering := do
  let v ← b.stored? x
  let w ← b.stored? y
  return b.type.layout.order v w

/-- The key of a row, for types of fixed width. -/
def key? (b : ColumnBuffer) (key : b.type.Value → Nat) (a : Address) : Option (Nat × Address) :=
  (b.stored? a).map fun v => (key v, a)

/-- Sorts rows by what is stored for them, for types of fixed width: whether they were sorted, and
the rows.  Where there is nothing to sort, nothing is looked up. -/
def radixSort? (b : ColumnBuffer) (rows : List Address) : Option (Bool × List Address) :=
  match b.type.layout.key? with
  | none => some (false, rows)
  | some key =>
    if rows.length < 2 then some (true, rows)
    else do
      let items ← rows.mapM (b.key? key)
      return (true, (Radix.sort b.type.layout.width items).map Prod.snd)

/-- The cells of rows as a column, whether or not its offsets count their bytes. -/
def column? (b : ColumnBuffer) (rows : List Address) : Option Column :=
  (rows.mapM b.cell?).map fun cells => .ofArray (.column b.type) cells.toArray

/-- The column of the cells of rows. -/
def gather (b : ColumnBuffer) (rows : List Address) : Except GatherError Column :=
  match b.column? rows with
  | none => .error .absent
  | some c => if c.Counted then .ok c else .error .overflow

/-- The column of the cells of rows, if they can be gathered. -/
def gather? (b : ColumnBuffer) (rows : List Address) : Option Column := (b.gather rows).toOption

/-- How a buffer is shown. -/
def describe (b : ColumnBuffer) : String :=
  let family := match b.type.layout.container with
    | .primitive => "PrimitiveColumn"
    | .boolean => "BooleanColumn"
    | .bytes => "ByteColumn"
  family ++ " \x7b data_type: " ++ (DataType.column b.type).name ++ ", batches: " ++
    toString b.batches.size ++ " \x7d"

end ColumnBuffer

end Collate
