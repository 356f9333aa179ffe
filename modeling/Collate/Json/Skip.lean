import Collate.Json.NumberLiteral
import Collate.Json.StringLiteral

/-!
# Values that are passed over

The value of a member that a record does not know only has to be well formed.  Its brackets are
kept on a stack, so it may nest as deep as it likes.
-/

namespace Collate.Json

/-- An open bracket. -/
inductive Bracket
  | list
  | object
  deriving DecidableEq, Repr

namespace Bracket

/-- The character that closes a bracket. -/
def closing : Bracket → Char
  | list => ']'
  | object => '}'

/-- The error where a text ends inside. -/
def endInside : Bracket → ReadError
  | list => .endInList
  | object => .endInObject

/-- The error where neither a comma nor the closing bracket follows an item. -/
def expectedCommaOrEnd : Bracket → ReadError
  | list => .expectedListCommaOrEnd
  | object => .expectedObjectCommaOrEnd

end Bracket

/-- What comes next inside the innermost bracket. -/
inductive Awaited
  /-- a value -/
  | value
  /-- the first item, or the end -/
  | firstItem
  /-- a comma, or the end -/
  | comma
  deriving DecidableEq, Repr

namespace Reader

/-- Passes over a name and the colon after it. -/
def skipName : Reader Unit := do
  if (← next .endInObject) = '"' then
    skipString
    colon
  else fail .keyMustBeString

/-- Passes over what stands before the value of an item. -/
def beginItem : Bracket → Reader Unit
  | .list => return ()
  | .object => skipName

/-- Passes over a value without items, or opens a bracket. -/
def skipAtom : Reader (Option Bracket) := do
  match ← next .endInValue with
  | 'n' => word ['n', 'u', 'l', 'l']; return none
  | 't' => word ['t', 'r', 'u', 'e']; return none
  | 'f' => word ['f', 'a', 'l', 's', 'e']; return none
  | '"' => skipString; return none
  | '[' => drop; return some .list
  | '{' => drop; return some .object
  | c =>
    if c = '-' ∨ c.isDigit then
      skipNumber
      return none
    else fail .expectedValue

/-- Passes over what is left of a value inside the given brackets, the innermost one first. -/
def skipFrom : (fuel : Nat) → Awaited → List Bracket → Reader Unit
  | 0, _, _ => fail .endInValue
  | fuel + 1, .value, stack => do
    match ← skipAtom with
    | some bracket => skipFrom fuel .firstItem (bracket :: stack)
    | none => skipFrom fuel .comma stack
  | _ + 1, _, [] => return ()
  | fuel + 1, awaited, bracket :: stack => do
    let c ← next bracket.endInside
    if c = bracket.closing then
      drop
      skipFrom fuel .comma stack
    else if awaited = .firstItem then
      beginItem bracket
      skipFrom fuel .value (bracket :: stack)
    else if c = ',' then
      drop
      beginItem bracket
      skipFrom fuel .value (bracket :: stack)
    else fail bracket.expectedCommaOrEnd

/-- Passes over a value of any shape.  Every byte is met in at most three steps. -/
def skipValue : Reader Unit := fun bs => skipFrom (3 * bs.length + 3) .value [] bs

end Reader

end Collate.Json
