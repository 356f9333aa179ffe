import Collate.Json.Skip

/-!
# Readers of known shapes

Numbers, strings, lists, records and variants.  A record is written as an object, whose members may
come in any order, or as a list of the values of its members in declared order.  A variant is
written as its name, or as an object with one member, the name, whose value is the payload.
Containers nest only as deep as a reader is allowed to go.
-/

namespace Collate.Json

-- Powers are those of the core library, whatever else is in scope.
attribute [local instance (2000)] instPowNat

/-- How deep the containers of a text may nest. -/
def maxDepth : Nat := 127

namespace Reader

/-- Fails on the value in front, which is not what is expected.  Atoms are read first, so that
what is wrong with them comes before. -/
def mismatch {α : Type} (expected : String) : Reader α := do
  match ← peek? with
  | some 'n' => word ['n', 'u', 'l', 'l']; fail (.invalidType .null expected)
  | some 't' => word ['t', 'r', 'u', 'e']; fail (.invalidType (.bool true) expected)
  | some 'f' => word ['f', 'a', 'l', 's', 'e']; fail (.invalidType (.bool false) expected)
  | some '"' =>
    let s ← string
    fail (.invalidType (.string s) expected)
  | some '[' => fail (.invalidType .sequence expected)
  | some '{' => fail (.invalidType .map expected)
  | c =>
    if c.any fun c => c = '-' ∨ c.isDigit then
      let n ← number
      fail (.invalidType n.found expected)
    else fail .expectedValue

/-! ### Atoms -/

/-- Reads an integer that is at least `low` and below `high`. -/
def integer (title : String) (low high : Int) : Reader Int := do
  let c ← next .endInValue
  if c = '-' ∨ c.isDigit then
    match ← number with
    | .integer n =>
      if low ≤ n ∧ n < high then return n else fail (.invalidValue (.integer n) title)
    | .float x => fail (.invalidType (.float x.text) title)
  else mismatch title

/-- Reads a natural number below `2 ^ bits`. -/
def natural (title : String) (bits : Nat) : Reader Nat := do
  let n ← integer title 0 (2 ^ bits)
  return n.toNat

/-- Reads a size in memory. -/
def size : Reader Nat := natural "usize" 64

/-- Reads a string; `title` says what it is. -/
def text (title : String) : Reader String := do
  if (← next .endInValue) = '"' then string else mismatch title

/-- Reads `null`, or a value. -/
def optional {α : Type} (reader : Reader α) : Reader (Option α) := do
  skipBlanks
  if (← peek?) = some 'n' then
    word ['n', 'u', 'l', 'l']
    return none
  else
    let a ← reader
    return some a

/-! ### Lists -/

/-- Goes to the next item of a list: whether there is one.  The comma before it is taken away. -/
def nextItem (first : Bool) : Reader Bool := do
  match ← next .endInList with
  | ']' => return false
  | c =>
    if first then return true
    else if c = ',' then
      drop
      if (← next .endInValue) = ']' then fail .trailingComma else return true
    else fail .expectedListCommaOrEnd

/-- Takes the end of a list away. -/
def endList : Reader Unit := do
  match ← next .endInList with
  | ']' => drop
  | ',' =>
    drop
    skipBlanks
    if (← peek?) = some ']' then fail .trailingComma else fail .trailingCharacters
  | _ => fail .trailingCharacters

/-- Reads the items of a list up to its end. -/
def items {α : Type} (item : Reader α) : (fuel : Nat) → (first : Bool) → Reader (List α)
  | 0, _ => fail .endInList
  | fuel + 1, first => do
    if ← nextItem first then
      let a ← item
      let rest ← items item fuel false
      return a :: rest
    else
      drop
      return []

/-- Reads a list.  Every item takes a byte at least. -/
def list {α : Type} (depth : Nat) (item : Nat → Reader α) : Reader (List α) := do
  match ← next .endInValue with
  | '[' =>
    match depth with
    | 0 => fail .tooDeep
    | depth + 1 =>
      drop
      fun bs => items (item depth) (bs.length + 1) true bs
  | _ => mismatch "a sequence"

/-! ### Records -/

/-- A member of a record that is read into a draft of type `σ`. -/
structure Member (σ : Type) where
  name : String
  /-- the draft holds the member already -/
  isRead : σ → Bool
  read : σ → Reader σ

/-- A member whose value is put into the draft by `put`. -/
def member {σ α : Type} (name : String) (get : σ → Option α) (put : Option α → σ → σ)
    (reader : Reader α) : Member σ where
  name := name
  isRead draft := (get draft).isSome
  read draft := do
    let a ← reader
    return put (some a) draft

/-- The members of a record, and how a draft is finished. -/
structure Shape (σ α : Type) where
  members : List (Member σ)
  start : σ
  /-- the record, or the first member that is missing -/
  finish : σ → Except ReadError α
  /-- no other members are allowed -/
  closed : Bool := false

/-- Goes to the next name of an object: whether there is one.  The comma before it is taken
away. -/
def nextName (first : Bool) : Reader Bool := do
  match ← next .endInObject with
  | '}' => return false
  | c =>
    if first then
      if c = '"' then return true else fail .keyMustBeString
    else if c = ',' then
      drop
      match ← next .endInValue with
      | '"' => return true
      | '}' => fail .trailingComma
      | _ => fail .keyMustBeString
    else fail .expectedObjectCommaOrEnd

/-- Reads the members of an object up to its end. -/
def members {σ α : Type} (shape : Shape σ α) :
    (fuel : Nat) → (first : Bool) → (draft : σ) → Reader σ
  | 0, _, _ => fail .endInObject
  | fuel + 1, first, draft => do
    if ← nextName first then
      let name ← string
      match shape.members.find? (·.name = name) with
      | some m =>
        if m.isRead draft then fail (.duplicateField name)
        else
          colon
          let draft ← m.read draft
          members shape fuel false draft
      | none =>
        if shape.closed then fail (.unknownField name (shape.members.map (·.name)))
        else
          colon
          skipValue
          members shape fuel false draft
    else
      drop
      return draft

/-- How many members a record has, for messages. -/
def countText (title : String) : Nat → String
  | 1 => s!"{title} with 1 element"
  | n => s!"{title} with {n} elements"

/-- Reads the values of the members that are left, `index` being the position of the first. -/
def values {σ : Type} (title : String) (count : Nat) :
    (index : Nat) → List (Member σ) → (draft : σ) → Reader σ
  | _, [], draft => do
    endList
    return draft
  | index, m :: ms, draft => do
    if ← nextItem (index == 0) then
      let draft ← m.read draft
      values title count (index + 1) ms draft
    else fail (.invalidLength index (countText title count))

/-- Reads a record whose inside may hold containers. -/
def recordOf {σ α : Type} (title : String) (shape : Shape σ α) : Reader α := do
  match ← next .endInValue with
  | '[' =>
    drop
    let draft ← values title shape.members.length 0 shape.members shape.start
    ofExcept (shape.finish draft)
  | '{' =>
    drop
    let draft ← fun bs => members shape (bs.length + 1) true shape.start bs
    ofExcept (shape.finish draft)
  | _ => mismatch title

/-- Reads a record where no container may begin. -/
def noRecord {α : Type} (title : String) : Reader α := do
  match ← next .endInValue with
  | '[' | '{' => fail .tooDeep
  | _ => mismatch title

/-- Reads a record; its members are read one level further in. -/
def record {σ α : Type} (depth : Nat) (title : String) (shape : Nat → Shape σ α) : Reader α :=
  match depth with
  | 0 => noRecord title
  | depth + 1 => recordOf title (shape depth)

/-- The value of a member that must be there. -/
def required {α : Type} (name : String) : Option α → Except ReadError α
  | some a => .ok a
  | none => .error (.missingField name)

/-! ### Variants -/

/-- A variant: what its name alone stands for, and its payload. -/
structure Variant (α : Type) where
  name : String
  plain : Reader α
  payload : (depth : Nat) → Reader α

/-- A variant without a payload. -/
def unitVariant {α : Type} (name : String) (a : α) : Variant α where
  name := name
  plain := return a
  payload _ := do
    if (← next .endInValue) = 'n' then
      word ['n', 'u', 'l', 'l']
      return a
    else mismatch "unit"

/-- A variant whose payload is a record. -/
def recordVariant {α : Type} (name : String) (payload : (depth : Nat) → Reader α) : Variant α where
  name := name
  plain := fail (.invalidType .unitVariant "struct variant")
  payload := payload

/-- Reads the name of a variant. -/
def variantName {α : Type} (variants : List (Variant α)) : Reader (Variant α) := do
  if (← next .endInValue) = '"' then
    let name ← string
    match variants.find? (·.name = name) with
    | some v => return v
    | none => fail (.unknownVariant name (variants.map (·.name)))
  else mismatch "variant identifier"

/-- Reads a variant. -/
def variant {α : Type} (depth : Nat) (variants : List (Variant α)) : Reader α := do
  match ← next .endInValue with
  | '{' =>
    match depth with
    | 0 => fail .tooDeep
    | depth + 1 =>
      drop
      let v ← variantName variants
      colon
      let a ← v.payload depth
      if (← next .endInObject) = '}' then
        drop
        return a
      else fail .expectedValue
  | '"' =>
    let v ← variantName variants
    v.plain
  | _ => fail .expectedValue

end Reader

end Collate.Json
