import Collate.Engine.RecordBatch
import Collate.Engine.SortedRows

/-!
# Result cursors

A cursor reads sorted rows batch by batch under a declared schema.  It moves on only when a batch
could be made.
-/

namespace Collate

/-- A reader of sorted rows. -/
structure ResultCursor where
  schema : List Field
  result : SortedResult
  batchSize : Nat
  offset : Nat := 0

namespace ResultCursor

/-- A cursor at the first row; a batch has a row at least. -/
def ofResult (schema : List Field) (result : SortedResult) (batchSize : Nat) : ResultCursor :=
  { schema, result, batchSize := max batchSize 1 }

/-- How many rows there are. -/
def total (c : ResultCursor) : Nat := c.result.rows.size

/-- Rows are left. -/
def hasNext (c : ResultCursor) : Bool := c.offset < c.total

/-- How many rows are left. -/
def remaining (c : ResultCursor) : Nat := c.total - c.offset

/-- The next batch. -/
def nextBatch (c : ResultCursor) : Except KernelError RecordBatch × ResultCursor :=
  if c.hasNext then
    let stop := c.offset + min c.batchSize c.remaining
    match c.result.rows.window c.offset stop with
    | .error .absent => (.error .fault, c)
    | .error .overflow => (.error (.batch .overflow), c)
    | .ok columns =>
      match RecordBatch.make c.schema columns with
      | .ok batch => (.ok batch, { c with offset := stop })
      | .error e => (.error (.batch e), c)
  else (.error (.exhausted c.total), c)

/-- The next batch, or nothing at the end. -/
def pull (c : ResultCursor) : Option (Except KernelError RecordBatch) × ResultCursor :=
  if c.hasNext then
    let (answer, c) := c.nextBatch
    (some answer, c)
  else (none, c)

/-- How a cursor is shown. -/
def describe (c : ResultCursor) : String :=
  "ResultIterator \x7b total: " ++ toString c.total ++ ", offset: " ++ toString c.offset ++
    ", batch_size: " ++ toString c.batchSize ++ " \x7d"

end ResultCursor

end Collate
