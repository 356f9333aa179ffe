import Collate.Engine.SortKernel

/-!
# Sort contexts

Kernels and cursors that share one budget.  The bytes of a sorted result are given back when the
last kernel or cursor that holds it is dropped.
-/

namespace Collate

/-- Sorters and cursors by number, over one budget. -/
structure SortContext where
  budget : Budget
  sorters : Table Nat Sorter := ∅
  cursors : Table Nat ResultCursor := ∅
  /-- the number of the next sorter or cursor -/
  next : Nat := 0

namespace SortContext

/-- A fresh context with a cap on the bytes of its buffers. -/
def ofCapacity (capacity : UInt64) : SortContext := { budget := .ofCapacity capacity }

/-- The reservations that sorters and cursors hold. -/
def heldReservations (x : SortContext) : List Nat :=
  x.sorters.entries.filterMap (fun e => e.2.result?.map (·.reservation)) ++
    x.cursors.entries.map (·.2.result.reservation)

/-- Gives a reservation back, unless a sorter or cursor holds it. -/
def releaseUnheld (x : SortContext) (reservation : Nat) : SortContext :=
  if reservation ∈ x.heldReservations then x
  else { x with budget := x.budget.release reservation }

/-- Takes a sorter in, under a new number. -/
def add (x : SortContext) (sorter : Sorter) : Nat × SortContext :=
  (x.next, { x with sorters := x.sorters.insert x.next sorter, next := x.next + 1 })

/-- Does a step of a sorter with the budget. -/
def onSorter {α : Type} (x : SortContext) (id : Nat)
    (step : Sorter → Budget → Except KernelError α × Sorter × Budget) :
    Except KernelError α × SortContext :=
  match x.sorters.get? id with
  | none => (.error .absent, x)
  | some s =>
    let (answer, s, budget) := step s x.budget
    (answer, { x with budget, sorters := x.sorters.insert id s })

/-- Buffers a batch in a sorter. -/
def evaluate (x : SortContext) (id : Nat) (columns : List Column) :
    Except KernelError Unit × SortContext :=
  x.onSorter id fun s b =>
    let (answer, s) := s.evaluate columns
    (answer, s, b)

/-- Sorts, and answers with the written addresses. -/
def finish (x : SortContext) (id : Nat) : Except KernelError (Option (List UInt8)) × SortContext :=
  x.onSorter id Sorter.finish

/-- Sorts, and opens a cursor on the result: its number. -/
def openCursor (x : SortContext) (id : Nat) (schema : List Field) :
    Except KernelError Nat × SortContext :=
  match x.onSorter id fun s b => s.openCursor b schema with
  | (.ok cursor, x) =>
    (.ok x.next, { x with cursors := x.cursors.insert x.next cursor, next := x.next + 1 })
  | (.error e, x) => (.error e, x)

/-- The next batch of a cursor. -/
def nextBatch (x : SortContext) (id : Nat) : Except KernelError RecordBatch × SortContext :=
  match x.cursors.get? id with
  | none => (.error .absent, x)
  | some c =>
    let (answer, c) := c.nextBatch
    (answer, { x with cursors := x.cursors.insert id c })

/-- The next batch of a cursor, or nothing at the end. -/
def pull (x : SortContext) (id : Nat) : Option (Except KernelError RecordBatch) × SortContext :=
  match x.cursors.get? id with
  | none => (some (.error .absent), x)
  | some c =>
    let (answer, c) := c.pull
    (answer, { x with cursors := x.cursors.insert id c })

/-- Drops a sorter. -/
def dropSorter (x : SortContext) (id : Nat) : SortContext :=
  match x.sorters.get? id with
  | none => x
  | some s =>
    let x := { x with sorters := x.sorters.erase id }
    match s.result? with
    | some result => x.releaseUnheld result.reservation
    | none => x

/-- Drops a cursor. -/
def dropCursor (x : SortContext) (id : Nat) : SortContext :=
  match x.cursors.get? id with
  | none => x
  | some c =>
    { x with cursors := x.cursors.erase id }.releaseUnheld c.result.reservation

end SortContext

end Collate
