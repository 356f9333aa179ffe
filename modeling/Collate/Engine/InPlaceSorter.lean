import Collate.Cache.KernelCache
import Collate.Engine.ResultCursor
import Collate.Row.RadixSort

/-!
# The in-place engine

The only column is its own key, so its values are sorted themselves.  Values and nulls of all
batches are joined; then the values are moved together, to the front or to the back of the buffer
in which they stand, and sorted there.  What is left in the other places is never shown.
-/

namespace Collate

/-- The state of an in-place engine. -/
inductive InPlacePhase (f : NumberFormat)
  /-- takes batches -/
  | accumulating (batches : Array (Array (Option f.Word)))
  | finalized (result : SortedResult)

/-- An in-place engine with what it has buffered. -/
structure InPlaceSorter where
  kernel : LoadedKernel
  nullOrder : NullOrder
  direction : Direction
  type : ColumnType
  format : NumberFormat
  isNumber : type.layout = .number format
  phase : InPlacePhase format
  totalRows : Nat := 0
  nullsTotal : Nat := 0

/-! ### Moving values together -/

namespace Compaction

variable {α : Type}

/-- Copies the value at one position to another. -/
def copy (values : Array α) (source target : Nat) : Array α :=
  match values[source]? with
  | some a => values.setIfInBounds target a
  | none => values

/-- Copies the valid values to the front; `reads` are the positions that are left, in order. -/
def toFront (isValid : Nat → Bool) : (reads : List Nat) → (write : Nat) → Array α → Array α
  | [], _, values => values
  | read :: reads, write, values =>
    if isValid read then toFront isValid reads (write + 1) (copy values read write)
    else toFront isValid reads write values

/-- Copies the valid values to the back; `reads` are the positions that are left, the last one
first. -/
def toBack (isValid : Nat → Bool) : (reads : List Nat) → (write : Nat) → Array α → Array α
  | [], _, values => values
  | read :: reads, write, values =>
    if isValid read then toBack isValid reads (write - 1) (copy values read (write - 1))
    else toBack isValid reads write values

/-- Moves the values that are not null together, away from where the nulls go. -/
def compact (nullOrder : NullOrder) (cells : Array (Option α)) (values : Array α) : Array α :=
  let isValid (i : Nat) := (cells[i]?.join).isSome
  if cells.all Option.isSome then values
  else
    match nullOrder with
    | .first => toBack isValid (List.range values.size).reverse values.size values
    | .last => toFront isValid (List.range values.size) 0 values

end Compaction

namespace InPlaceSorter

/-- The plan of the sort. -/
def template (s : InPlaceSorter) : Template := s.kernel.template

/-- An engine for values of one type, whatever its parameters, sorts a column of another type. -/
def fits (engine type : ColumnType) : Bool :=
  match engine, type with
  | .decimal128 _ _, .decimal128 _ _ => true
  | engine, type => engine = type

/-- An engine for a type of numbers, a null order and a direction, which must be those of the
kernel. -/
def make (engine : ColumnType) (kernel : LoadedKernel) (nullOrder : NullOrder)
    (direction : Direction) : Except KernelError InPlaceSorter :=
  let t := kernel.template
  if t.strategy ≠ .inPlace then .error (.misuse (.engine kernel.signature t.strategy))
  else if t.policy ≠ ⟨nullOrder, direction⟩ then .error (.misuse (.policy kernel.signature))
  else
    match t.fields with
    | [] => .error .fault
    | f :: _ =>
      if fits engine f.type then
        match h : f.type.layout with
        | .number format =>
          .ok {
            kernel, nullOrder, direction
            type := f.type
            format := format
            isNumber := h
            phase := .accumulating #[] }
        | _ => .error (.misuse (.noInPlaceEngine f.type))
      else .error (.misuse (.engineType kernel.signature f.type (.column engine)))

/-- Buffers a batch; an empty one is left out. -/
def evaluate (s : InPlaceSorter) (columns : List Column) :
    Except KernelError Unit × InPlaceSorter :=
  match s.phase with
  | .accumulating batches =>
    match s.template.checkColumns columns, columns with
    | .error e, _ => (.error e, s)
    | .ok 0, _ => (.ok (), s)
    | .ok _, [] => (.error .fault, s)
    | .ok rows, c :: _ =>
      if h : c.type = .column s.type then
        (.ok (), { s with
          phase := .accumulating (batches.push (Layout.words s.isNumber (c.cellsOf h).toArray))
          totalRows := s.totalRows + rows
          nullsTotal := s.nullsTotal + c.nullCount })
      else (.error (.misuse (.bufferType (.column s.type) c.type)), s)
  | .finalized _ => (.error (.misuse .finalized), s)

/-- The values of all batches, with zeros for nulls, moved together. -/
def joined (s : InPlaceSorter) (batches : Array (Array (Option s.format.Word))) :
    Array s.format.Word :=
  let cells := batches.flatten
  Compaction.compact s.nullOrder cells (cells.map (·.getD 0))

/-- Sorts values that are not null. -/
def sortValid (s : InPlaceSorter) (values : List s.format.Word) : List s.format.Word :=
  match s.template.sortCall with
  | .radix _ => Radix.sortByKey s.format.width (fun w => (s.format.sortKey w).toNat) values
  | .comparison =>
    values.mergeSort fun v w => s.direction.apply (s.format.order v w) != .gt

/-- The sorted values of all batches. -/
def sortedRun? (s : InPlaceSorter) (batches : Array (Array (Option s.format.Word))) :
    Option (SortedRun s.format) := do
  let placement := s.template.placement
  let values ← sortRange? (placement.validRange s.totalRows s.nullsTotal)
    (fun run => some (s.sortValid run)) (s.joined batches)
  return ⟨values, placement.nullRange s.totalRows s.nullsTotal⟩

/-- Sorts what is buffered, once.  A budget that refuses the values leaves the engine as it is, and
so does a fault. -/
def finalize (s : InPlaceSorter) (b : Budget) :
    Except KernelError SortedResult × InPlaceSorter × Budget :=
  match s.phase with
  | .finalized result => (.ok result, s, b)
  | .accumulating batches =>
    match b.reserve (s.totalRows * s.format.width) "sort_values" with
    | .error e => (.error (.budget e), s, b)
    | .ok (reservation, b) =>
      match s.sortedRun? batches with
      | some run =>
        let result := ⟨.values s.type s.format s.isNumber run, reservation⟩
        (.ok result, { s with phase := .finalized result }, b)
      | none => (.error .fault, s, b.release reservation)

end InPlaceSorter

end Collate
