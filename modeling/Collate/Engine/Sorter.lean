import Collate.Engine.IndexSorter
import Collate.Engine.InPlaceSorter

/-!
# Sorters

An engine of either kind.  Batches go in until the first time that the result is asked for; from
then on the same result is given out.
-/

namespace Collate

/-- An engine. -/
inductive Sorter
  | indexed (s : IndexSorter)
  | inPlace (s : InPlaceSorter)

namespace Sorter

/-- The engine of a kernel. -/
def ofKernel (kernel : LoadedKernel) : Except KernelError Sorter :=
  let t := kernel.template
  match t.strategy with
  | .indexed =>
    (IndexSorter.make kernel t.policy.nullOrder t.policy.direction).map indexed
  | .inPlace =>
    match t.fields with
    | [] => .error .fault
    | f :: _ =>
      if f.type.supportsInPlace then
        (InPlaceSorter.make f.type kernel t.policy.nullOrder t.policy.direction).map inPlace
      else .error (.misuse (.noInPlaceEngine f.type))

/-- The plan of the sort. -/
def template : Sorter → Template
  | indexed s => s.template
  | inPlace s => s.template

/-- The rows that are buffered. -/
def totalRows : Sorter → Nat
  | indexed s => s.totalRows
  | inPlace s => s.totalRows

/-- The result, once it has been asked for. -/
def result? : Sorter → Option SortedResult
  | indexed s =>
    match s.phase with
    | .finalized result => some result
    | _ => none
  | inPlace s =>
    match s.phase with
    | .finalized result => some result
    | _ => none

/-- Buffers a batch. -/
def evaluate : Sorter → List Column → Except KernelError Unit × Sorter
  | indexed s, columns =>
    let (answer, s) := s.evaluate columns
    (answer, indexed s)
  | inPlace s, columns =>
    let (answer, s) := s.evaluate columns
    (answer, inPlace s)

/-- Sorts what is buffered, once. -/
def finalize : Sorter → Budget → Except KernelError SortedResult × Sorter × Budget
  | indexed s, b =>
    let (answer, s, b) := s.finalize b
    (answer, indexed s, b)
  | inPlace s, b =>
    let (answer, s, b) := s.finalize b
    (answer, inPlace s, b)

/-- The written addresses of sorted rows, if that is what they are. -/
def writtenAddresses : SortedRows → Option (List UInt8)
  | .addresses _ rows => some (rows.toList.flatMap Address.bytes)
  | .values .. => none

/-- Sorts, and answers with the written addresses of the rows in sorted order, or with nothing where
values were sorted. -/
def finish (s : Sorter) (b : Budget) : Except KernelError (Option (List UInt8)) × Sorter × Budget :=
  let (answer, s, b) := s.finalize b
  (answer.map fun result => writtenAddresses result.rows, s, b)

/-- Sorts, and opens a cursor on the result under a schema. -/
def openCursor (s : Sorter) (b : Budget) (schema : List Field) :
    Except KernelError ResultCursor × Sorter × Budget :=
  match s.template.checkSchema schema with
  | .error e => (.error (.misuse e), s, b)
  | .ok () =>
    let (answer, s, b) := s.finalize b
    (answer.map fun result => .ofResult schema result s.template.batchSize, s, b)

end Sorter

end Collate
