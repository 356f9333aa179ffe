import Collate.Json.ReadError

/-!
# Readers of JSON text

A reader takes what it reads from the front of a list of bytes, or fails.  This module holds the
steps that all readers are made of; bytes outside strings count as the ASCII characters that they
are.
-/

namespace Collate.Json

/-- Takes a value from the front of a text. -/
abbrev Reader (α : Type) := StateT (List UInt8) (Except ReadError) α

/-- A blank between the parts of a text. -/
def isBlank (b : UInt8) : Bool :=
  match Char.ofUInt8 b with
  | ' ' | '\n' | '\t' | '\r' => true
  | _ => false

namespace Reader

/-- Fails. -/
def fail {α : Type} (e : ReadError) : Reader α := fun _ => .error e

/-- Gives the answer, or fails with the error. -/
def ofExcept {α : Type} (answer : Except ReadError α) : Reader α := fun bs =>
  match answer with
  | .ok a => .ok (a, bs)
  | .error e => .error e

/-- The next character, which stays in front. -/
def peek? : Reader (Option Char) := fun bs => .ok (bs.head?.map Char.ofUInt8, bs)

/-- Takes one byte away. -/
def drop : Reader Unit := fun bs => .ok ((), bs.tail)

/-- Takes blanks away. -/
def skipBlanks : Reader Unit := fun bs => .ok ((), bs.dropWhile isBlank)

/-- The next character after blanks, which stays in front; a text that ends there fails. -/
def next (atEnd : ReadError) : Reader Char := do
  skipBlanks
  match ← peek? with
  | some c => return c
  | none => fail atEnd

/-- Takes the characters of a word away. -/
def word : List Char → Reader Unit
  | [] => return ()
  | c :: cs => do
    match ← peek? with
    | none => fail .endInValue
    | some d =>
      if d = c then
        drop
        word cs
      else fail .expectedWord

/-- Takes the colon after a name away. -/
def colon : Reader Unit := do
  if (← next .endInObject) = ':' then drop else fail .expectedColon

/-- Reads a whole text, in which only blanks may follow the value. -/
def run {α : Type} (reader : Reader α) (bs : List UInt8) : Except ReadError α := do
  let (a, rest) ← reader bs
  if rest.all isBlank then .ok a else .error .trailingCharacters

end Reader

end Collate.Json
