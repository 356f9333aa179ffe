/-!
# Cells

The cells of a column: a value or null for every row.  Cells that were made with a null among them
keep a record of their nulls, and so does every part of them, even one without nulls.  Without the
record no row is null, not even one past the end.
-/

namespace Collate

/-- Cells with values of a type. -/
structure Cells (α : Type) where
  toArray : Array (Option α)
  /-- a record of the nulls is kept -/
  tracked : Bool
  isSome_of_untracked : tracked = false → ∀ cell ∈ toArray, cell.isSome

namespace Cells

variable {α : Type}

/-- The cells of an array. -/
def ofArray (cells : Array (Option α)) : Cells α where
  toArray := cells
  tracked := cells.any Option.isNone
  isSome_of_untracked untracked cell mem := by
    have value := Array.any_eq_false'.1 untracked cell mem
    cases cell <;> simp_all

/-- How many rows there are. -/
def size (c : Cells α) : Nat := c.toArray.size

/-- How many rows are null. -/
def nullCount (c : Cells α) : Nat := c.toArray.countP Option.isNone

/-- The cell of a row. -/
def get? (c : Cells α) (row : Nat) : Option (Option α) := c.toArray[row]?

/-- A row is null, as the record has it. -/
def isNull? (c : Cells α) (row : Nat) : Option Bool :=
  if c.tracked then (c.get? row).map Option.isNone else some false

/-- So many cells from a row on, if they are there. -/
def slice? (c : Cells α) (offset length : Nat) : Option (Cells α) :=
  if offset + length ≤ c.size then
    some {
      toArray := c.toArray.extract offset (offset + length)
      tracked := c.tracked
      isSome_of_untracked := fun h cell mem => by
        obtain ⟨i, hi, rfl⟩ := Array.mem_iff_getElem.1 mem
        rw [Array.getElem_extract]
        exact c.isSome_of_untracked h _ (Array.getElem_mem _) }
  else none

/-- Of a row that is there, the record tells whether its cell is null. -/
theorem isNull?_of_get? {c : Cells α} {row : Nat} {cell : Option α}
    (h : c.get? row = some cell) : c.isNull? row = some cell.isNone := by
  unfold isNull?
  by_cases tracked : c.tracked
  · simp [tracked, h]
  · have some := c.isSome_of_untracked (by simpa using tracked) cell (Array.mem_of_getElem? h)
    cases cell <;> simp_all

end Cells

end Collate
