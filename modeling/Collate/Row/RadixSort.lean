/-!
# Radix sort

Items are sorted by a natural number, one digit in base 256 after the other, starting with the
lowest.  Every pass distributes the items over 256 buckets and keeps their order within each.  A
pass in which all items have the same digit is left out.
-/

namespace Collate.Radix

-- Powers are those of the core library, whatever else is in scope.
attribute [local instance (2000)] instPowNat

variable {α : Type}

/-- How many digits there are. -/
def base : Nat := 256

/-- The digit of a number at a place. -/
def digit (place n : Nat) : Nat := n / base ^ place % base

/-- The items by their digits, those with one digit in the order in which they come. -/
def distribute (digit : α → Nat) (items : List α) : List α :=
  let buckets := items.foldl (fun buckets a => buckets.modify (digit a) (·.push a))
    (Array.replicate base (#[] : Array α))
  buckets.toList.flatMap Array.toList

/-- All items have the same digit. -/
def isUniform (digit : α → Nat) : List α → Bool
  | [] => true
  | a :: rest => rest.all fun b => digit b = digit a

/-- The pass for one place. -/
def pass (items : List (Nat × α)) (place : Nat) : List (Nat × α) :=
  let digitOf (item : Nat × α) := digit place item.1
  if isUniform digitOf items then items else distribute digitOf items

/-- Sorts items by keys of so many digits. -/
def sort (places : Nat) (items : List (Nat × α)) : List (Nat × α) :=
  (List.range places).foldl pass items

/-- Sorts items by keys of so many bytes. -/
def sortByKey (width : Nat) (key : α → Nat) (items : List α) : List α :=
  (sort width (items.map fun a => (key a, a))).map Prod.snd

end Collate.Radix
