import Collate.Cache.KernelCache
import Collate.Engine.ResultCursor
import Collate.Row.RowOrder

/-!
# The index engine

Buffers batches, then sorts the addresses of their rows and never the rows.  The first pass places
the addresses: those with a null in the partition column go to one region and the others to
another, both in order of arrival.  Then the region of the others is sorted.
-/

namespace Collate

-- Powers are those of the core library, whatever else is in scope; for this the type of an exponent
-- is written out.
attribute [local instance (2000)] instPowNat

/-- The state of an index engine. -/
inductive IndexPhase
  /-- takes batches -/
  | accumulating (columns : List ColumnBuffer) (batchRows : Array UInt32)
  | finalized (result : SortedResult)
  /-- came to a fault when it was finalized -/
  | failed

/-- An index engine with what it has buffered. -/
structure IndexSorter where
  kernel : LoadedKernel
  order : RowOrder
  phase : IndexPhase
  totalRows : Nat := 0
  /-- the rows with a null in the partition column -/
  nullsTotal : Nat := 0

namespace IndexSorter

/-- The plan of the sort. -/
def template (s : IndexSorter) : Template := s.kernel.template

/-- An engine for a null order and a direction, which must be those of the kernel. -/
def make (kernel : LoadedKernel) (nullOrder : NullOrder) (direction : Direction) :
    Except KernelError IndexSorter :=
  let t := kernel.template
  if t.strategy ≠ .indexed then .error (.misuse (.engine kernel.signature t.strategy))
  else if t.policy ≠ ⟨nullOrder, direction⟩ then .error (.misuse (.policy kernel.signature))
  else .ok {
    kernel
    order := ⟨t.comparator.slots, nullOrder, direction⟩
    phase := .accumulating (t.fields.map fun f => .ofType f.type) #[] }

/-- Adds a batch to the buffers, one column after the other.  A column of another type than its
buffer ends it, and the columns before that one stay added. -/
def pushAll : List ColumnBuffer → List Column → Except Misuse Unit × List ColumnBuffer
  | b :: buffers, c :: columns =>
    match b.push? c with
    | none => (.error (.bufferType (.column b.type) c.type), b :: buffers)
    | some b =>
      let (answer, buffers) := pushAll buffers columns
      (answer, b :: buffers)
  | buffers, _ => (.ok (), buffers)

/-- Buffers a batch; an empty one is left out. -/
def evaluate (s : IndexSorter) (columns : List Column) : Except KernelError Unit × IndexSorter :=
  match s.phase with
  | .accumulating buffers batchRows =>
    match s.template.checkColumns columns with
    | .error e => (.error e, s)
    | .ok 0 => (.ok (), s)
    | .ok rows =>
      if batchRows.size < 2 ^ (32 : Nat) - 1 then
        match pushAll buffers columns with
        | (.error e, buffers) =>
          (.error (.misuse e), { s with phase := .accumulating buffers batchRows })
        | (.ok (), buffers) =>
          let batchRows := batchRows.push (.ofNat rows)
          match columns[s.template.partitionSlot]? with
          | some partition =>
            (.ok (), { s with
              phase := .accumulating buffers batchRows
              totalRows := s.totalRows + rows
              nullsTotal := s.nullsTotal + partition.nullCount })
          | none => (.error .fault, { s with phase := .accumulating buffers batchRows })
      else (.error (.misuse .batchCount), s)
  | _ => (.error (.misuse .finalized), s)

/-- The addresses of all rows in order of arrival. -/
def arrivals (batchRows : Array UInt32) : List Address :=
  batchRows.toList.zipIdx.flatMap fun (rows, batch) =>
    (List.range rows.toNat).map fun row => ⟨.ofNat batch, .ofNat row⟩

/-- Writes the addresses of rows with a value and of rows with a null behind two cursors. -/
def place? (partition : ColumnBuffer) :
    List Address → (validAt nullAt : Nat) → Array Address → Option (Array Address)
  | [], _, _, out => some out
  | a :: rest, validAt, nullAt, out =>
    match partition.isNull? a with
    | none => none
    | some true =>
      if nullAt < out.size then
        place? partition rest validAt (nullAt + 1) (out.setIfInBounds nullAt a)
      else none
    | some false =>
      if validAt < out.size then
        place? partition rest (validAt + 1) nullAt (out.setIfInBounds validAt a)
      else none

/-- Sorts the rows with a value. -/
def sortValid? (s : IndexSorter) (columns : List ColumnBuffer) (rows : List Address) :
    Option (List Address) :=
  match s.template.sortCall with
  | .comparison => s.order.sort? columns rows
  | .radix slot => do
    let column ← columns[slot]?
    match ← column.radixSort? rows with
    | (true, sorted) => return sorted
    | (false, rows) => s.order.sort? columns rows

/-- The addresses of all rows in sorted order. -/
def sortedAddresses? (s : IndexSorter) (columns : List ColumnBuffer) (batchRows : Array UInt32) :
    Option (Array Address) := do
  let placement := s.template.placement
  let partition ← columns[s.template.partitionSlot]?
  let placed ← place? partition (arrivals batchRows)
    (placement.valid.offset s.totalRows s.nullsTotal)
    (placement.null.offset s.totalRows s.nullsTotal)
    (Array.replicate s.totalRows ⟨0, 0⟩)
  sortRange? (placement.validRange s.totalRows s.nullsTotal) (s.sortValid? columns) placed

/-- Sorts what is buffered, once.  A budget that refuses the addresses leaves the engine as it is;
a fault makes it fail for good. -/
def finalize (s : IndexSorter) (b : Budget) :
    Except KernelError SortedResult × IndexSorter × Budget :=
  match s.phase with
  | .finalized result => (.ok result, s, b)
  | phase =>
    match b.reserve (s.totalRows * Address.width) "sort_indices" with
    | .error e => (.error (.budget e), s, b)
    | .ok (reservation, b) =>
      match phase with
      | .accumulating columns batchRows =>
        match s.sortedAddresses? columns batchRows with
        | some rows =>
          let result := ⟨.addresses columns rows, reservation⟩
          (.ok result, { s with phase := .finalized result }, b)
        | none => (.error .fault, { s with phase := .failed }, b.release reservation)
      | _ => (.error (.misuse .failed), s, b.release reservation)

end IndexSorter

end Collate
