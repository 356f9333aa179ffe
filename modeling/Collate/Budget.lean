import Collate.Text.Quoted

/-!
# Byte budgets

A budget caps the bytes of the sort buffers that are alive.  Its ledger counts the bytes in use,
the buffers that hold them, and the most bytes that were ever in use; a reservation is what one
buffer holds.
-/

namespace Collate

/-- The counters of a budget. -/
structure Ledger where
  capacity : UInt64
  used : UInt64 := 0
  /-- the most bytes that were ever in use -/
  peak : UInt64 := 0
  /-- the reservations that have not been given back; each holds a share of the ledger, and a word
  counts more shares than there can be -/
  live : Nat := 0
  deriving DecidableEq, Repr

/-- The bytes that one buffer holds. -/
structure Reservation where
  bytes : UInt64
  /-- what the buffer is for -/
  tag : String
  deriving DecidableEq, Repr

/-- Why a budget refuses bytes. -/
structure BudgetError where
  tag : String
  requested : Nat
  capacity : UInt64
  used : UInt64
  deriving DecidableEq, Repr

/-- The wording of a refusal. -/
def BudgetError.message (e : BudgetError) : String :=
  s!"memory budget exceeded for tag '{e.tag}': requested {e.requested} bytes, " ++
    s!"capacity {e.capacity}, used {e.used}"

/-- How a reservation is shown. -/
def Reservation.describe (r : Reservation) : String :=
  "Reservation \x7b bytes: " ++ toString r.bytes ++ ", tag: " ++ Text.quoted r.tag ++ " \x7d"

namespace Ledger

/-- The counters of a fresh budget. -/
def ofCapacity (capacity : UInt64) : Ledger := { capacity }

/-- The sum of a word and a number, if a word can hold it. -/
def checkedAdd (a : UInt64) (n : Nat) : Option UInt64 :=
  if a.toNat + n < UInt64.size then some (a + .ofNat n) else none

/-- The bytes in use with more of them, if a word can hold so many and the capacity allows them. -/
def take? (l : Ledger) (bytes : Nat) : Option UInt64 :=
  (checkedAdd l.used bytes).filter fun used => used ≤ l.capacity

/-- Reserves bytes, unless that would cross the capacity. -/
def reserve (l : Ledger) (bytes : Nat) (tag : String) :
    Except BudgetError (Reservation × Ledger) :=
  match l.take? bytes with
  | some used =>
    .ok (⟨.ofNat bytes, tag⟩, { l with used, peak := max l.peak used, live := l.live + 1 })
  | none => .error ⟨tag, bytes, l.capacity, l.used⟩

/-- Takes back what a reservation holds. -/
def release (l : Ledger) (r : Reservation) : Ledger :=
  { l with used := l.used - r.bytes, live := l.live - 1 }

/-- How a budget is shown. -/
def describe (l : Ledger) : String :=
  "SortBudget \x7b capacity: " ++ toString l.capacity ++ ", used: " ++ toString l.used ++
    ", peak: " ++ toString l.peak ++ " \x7d"

end Ledger

/-- A ledger with the reservations that are alive, each under the number it was given. -/
structure Budget where
  ledger : Ledger
  outstanding : List (Nat × Reservation) := []
  /-- the number of the next reservation -/
  next : Nat := 0
  deriving DecidableEq, Repr

namespace Budget

/-- A fresh budget. -/
def ofCapacity (capacity : UInt64) : Budget := { ledger := .ofCapacity capacity }

/-- Reserves bytes under a new number. -/
def reserve (b : Budget) (bytes : Nat) (tag : String) : Except BudgetError (Nat × Budget) :=
  match b.ledger.reserve bytes tag with
  | .ok (r, ledger) =>
    .ok (b.next, { ledger, outstanding := (b.next, r) :: b.outstanding, next := b.next + 1 })
  | .error e => .error e

/-- The reservation with a number, while it is alive. -/
def get? (b : Budget) (id : Nat) : Option Reservation := b.outstanding.lookup id

/-- Gives a reservation back; a number without a reservation changes nothing. -/
def release (b : Budget) (id : Nat) : Budget :=
  match b.get? id with
  | some r =>
    { b with
      ledger := b.ledger.release r
      outstanding := b.outstanding.filter (·.1 ≠ id) }
  | none => b

end Budget

end Collate
