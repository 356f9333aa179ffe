import Collate.Engine.ResultCursor
import Collate.Proofs.Engine.Compaction

/-!
# Operations with their bounds

The engines subtract, read, write and slice without a look at the bounds where these are known to be
kept.  Here are the same operations with the bounds looked at: one that leaves them is `none`.  Each
is shown to come to what the unchecked one does, under the condition that the engines keep
(`Compaction.compact?_eq`, `Placement.validRange?_eq`).
-/

namespace Collate

/-- The difference of two numbers, if the second is not the greater one. -/
def sub? (a b : Nat) : Option Nat := if b ≤ a then some (a - b) else none

theorem sub?_eq {a b : Nat} (h : b ≤ a) : sub? a b = some (a - b) := if_pos h

/-- The items from a position up to another, if they are there. -/
def slice? {α : Type} (items : Array α) (start stop : Nat) : Option (Array α) :=
  if start ≤ stop ∧ stop ≤ items.size then some (items.extract start stop) else none

theorem slice?_eq {α : Type} {items : Array α} {start stop : Nat} (hstart : start ≤ stop)
    (hstop : stop ≤ items.size) : slice? items start stop = some (items.extract start stop) :=
  if_pos ⟨hstart, hstop⟩

/-! ### Regions -/

namespace Region

/-- The start of a region. -/
def offset? (r : Region) (total nulls : Nat) : Option Nat :=
  match r with
  | front => some 0
  | afterNulls => some nulls
  | tail => sub? total nulls

theorem offset?_eq (r : Region) {total nulls : Nat} (h : nulls ≤ total) :
    r.offset? total nulls = some (r.offset total nulls) := by
  cases r with
  | front => rfl
  | afterNulls => rfl
  | tail => exact sub?_eq h

end Region

namespace Placement

/-- The positions of the rows with a value. -/
def validRange? (p : Placement) (total nulls : Nat) : Option Range := do
  let start ← p.valid.offset? total nulls
  let count ← sub? total nulls
  return ⟨start, start + count⟩

/-- The positions of the rows with a null key. -/
def nullRange? (p : Placement) (total nulls : Nat) : Option Range := do
  let start ← p.null.offset? total nulls
  return ⟨start, start + nulls⟩

variable {total nulls : Nat}

theorem validRange?_eq (p : Placement) (h : nulls ≤ total) :
    p.validRange? total nulls = some (p.validRange total nulls) := by
  rw [validRange?, Region.offset?_eq _ h, sub?_eq h]
  rfl

theorem nullRange?_eq (p : Placement) (h : nulls ≤ total) :
    p.nullRange? total nulls = some (p.nullRange total nulls) := by
  rw [nullRange?, Region.offset?_eq _ h]
  rfl

end Placement

/-! ### Moving values together -/

namespace Compaction

variable {α : Type} {cells : Array (Option α)}

/-- Copies the value at one position to another. -/
def copy? (values : Array α) (source target : Nat) : Option (Array α) :=
  if source < values.size ∧ target < values.size then some (copy values source target) else none

/-- Copies the values of cells that are not null to the front. -/
def toFront? (cells : Array (Option α)) : (reads : List Nat) → (write : Nat) → Array α →
    Option (Array α)
  | [], _, values => some values
  | read :: reads, write, values => do
    if (← cells[read]?).isSome then
      let values ← copy? values read write
      toFront? cells reads (write + 1) values
    else toFront? cells reads write values

/-- Copies the values of cells that are not null to the back. -/
def toBack? (cells : Array (Option α)) : (reads : List Nat) → (write : Nat) → Array α →
    Option (Array α)
  | [], _, values => some values
  | read :: reads, write, values => do
    if (← cells[read]?).isSome then
      let write ← sub? write 1
      let values ← copy? values read write
      toBack? cells reads write values
    else toBack? cells reads write values

/-- Moves the values of cells that are not null together. -/
def compact? (nullOrder : NullOrder) (cells : Array (Option α)) (values : Array α) :
    Option (Array α) :=
  if cells.all Option.isSome then some values
  else
    match nullOrder with
    | .first => toBack? cells (List.range values.size).reverse values.size values
    | .last => toFront? cells (List.range values.size) 0 values

theorem toFront?_eq {reads : List Nat} (write : Nat) (values : Array α)
    (hcells : values.size ≤ cells.size) (hsorted : reads.Pairwise (· < ·))
    (hle : ∀ r ∈ reads, write ≤ r) (hlt : ∀ r ∈ reads, r < values.size) :
    toFront? cells reads write values =
      some (toFront (fun i => (cells[i]?.join).isSome) reads write values) := by
  induction reads generalizing write values with
  | nil => rfl
  | cons read reads ih =>
    rw [List.pairwise_cons] at hsorted
    rw [List.forall_mem_cons] at hle hlt
    have hread : cells[read]? = some cells[read] := Array.getElem?_eq_getElem (by omega)
    rw [toFront?, toFront, hread]
    simp only [Option.bind_eq_bind, Option.bind_some, Option.join_some]
    split_ifs
    · have hcopy : copy? values read write = some (copy values read write) :=
        if_pos ⟨hlt.1, by omega⟩
      rw [hcopy]
      exact ih (write + 1) (copy values read write) (by rw [size_copy]; exact hcells) hsorted.2
        (fun r hr => by have := hsorted.1 r hr; omega)
        (fun r hr => by rw [size_copy]; exact hlt.2 r hr)
    · exact ih write values hcells hsorted.2 hle.2 hlt.2

theorem toBack?_eq {reads : List Nat} (write : Nat) (values : Array α)
    (hcells : values.size ≤ cells.size) (hsorted : reads.Pairwise (· > ·))
    (hle : ∀ r ∈ reads, r < write) (hwrite : write ≤ values.size) :
    toBack? cells reads write values =
      some (toBack (fun i => (cells[i]?.join).isSome) reads write values) := by
  induction reads generalizing write values with
  | nil => rfl
  | cons read reads ih =>
    rw [List.pairwise_cons] at hsorted
    rw [List.forall_mem_cons] at hle
    have hread : cells[read]? = some cells[read] := Array.getElem?_eq_getElem (by omega)
    rw [toBack?, toBack, hread]
    simp only [Option.bind_eq_bind, Option.bind_some, Option.join_some]
    split_ifs
    · have hcopy : copy? values read (write - 1) = some (copy values read (write - 1)) :=
        if_pos ⟨by omega, by omega⟩
      rw [sub?_eq (by omega), Option.bind_some, hcopy]
      exact ih (write - 1) (copy values read (write - 1)) (by rw [size_copy]; exact hcells)
        hsorted.2 (fun r hr => by have := hsorted.1 r hr; omega) (by rw [size_copy]; omega)
    · exact ih write values hcells hsorted.2 hle.2 hwrite

/-- Moving the values of cells together keeps within them. -/
theorem compact?_eq (o : NullOrder) {values : Array α} (h : values.size = cells.size) :
    compact? o cells values = some (compact o cells values) := by
  unfold compact? compact
  simp only
  split_ifs
  · rfl
  · cases o with
    | first =>
      refine toBack?_eq values.size values h.le ?_ (fun r hr => by simpa using hr) le_rfl
      rw [List.pairwise_reverse]
      exact List.pairwise_lt_range
    | last =>
      exact toFront?_eq 0 values h.le List.pairwise_lt_range (fun r _ => Nat.zero_le r)
        fun r hr => by simpa using hr

end Compaction

namespace ResultCursor

/-- How many rows are left. -/
def remaining? (c : ResultCursor) : Option Nat := sub? c.total c.offset

end ResultCursor

end Collate
