import Collate.Json.Reader
import Collate.Text.Bytes

/-!
# Strings in JSON text

What stands between quotation marks is read byte by byte.  After a backslash a letter stands for a
character, or `u` and four hexadecimal digits for a code unit of UTF-16, where a pair of surrogates
makes one character.  Strings that are skipped follow the same rules, but pairs and the encoding
are not checked there.
-/

namespace Collate.Json

/-- Where the reading of a string stands. -/
inductive StringState
  | plain
  /-- after a backslash -/
  | escape
  /-- after `\u`, the digits so far, and the leading surrogate that came before -/
  | unit (leading : Option Nat) (digits : List Char)
  /-- after a leading surrogate, where a backslash must follow -/
  | pairEscape (leading : Nat)
  /-- after a leading surrogate and a backslash, where `u` must follow -/
  | pairUnit (leading : Nat)
  deriving DecidableEq, Repr

namespace StringState

/-- The character that a letter after a backslash stands for. -/
def escaped? : Char → Option Char
  | '"' => some '"'
  | '\\' => some '\\'
  | '/' => some '/'
  | 'b' => some '\x08'
  | 'f' => some '\x0c'
  | 'n' => some '\n'
  | 'r' => some '\r'
  | 't' => some '\t'
  | _ => none

/-- The number that hexadecimal digits spell. -/
def codeUnit? (digits : List Char) : Option Nat :=
  digits.foldlM (fun n c => (Hex.value? c).map (16 * n + ·)) 0

/-- The UTF-8 bytes of a character. -/
def encoded (codePoint : Nat) : List UInt8 := String.utf8EncodeChar (Char.ofNat codePoint)

/-- What follows a code unit: the bytes it stands for, or the wait for its partner. -/
def afterUnit (checked : Bool) (leading : Option Nat) (n : Nat) :
    Except ReadError (StringState × List UInt8) :=
  if checked then
    match leading with
    | none =>
      if 0xDC00 ≤ n ∧ n ≤ 0xDFFF then .error .loneSurrogate
      else if 0xD800 ≤ n ∧ n ≤ 0xDBFF then .ok (pairEscape n, [])
      else .ok (plain, encoded n)
    | some high =>
      if 0xDC00 ≤ n ∧ n ≤ 0xDFFF then
        .ok (plain, encoded (0x10000 + (high - 0xD800) * 0x400 + (n - 0xDC00)))
      else .error .loneSurrogate
  else .ok (plain, [])

/-- Takes one byte: the state after it and the bytes of the text that it completes. -/
def step (checked : Bool) (b : UInt8) :
    StringState → Except ReadError (StringState × List UInt8)
  | plain =>
    if b < 0x20 then .error .controlCharacter
    else if Char.ofUInt8 b = '\\' then .ok (escape, [])
    else .ok (plain, [b])
  | escape =>
    if Char.ofUInt8 b = 'u' then .ok (unit none [], [])
    else
      match escaped? (Char.ofUInt8 b) with
      | some c => .ok (plain, String.utf8EncodeChar c)
      | none => .error .invalidEscape
  | unit leading digits =>
    let digits := digits ++ [Char.ofUInt8 b]
    if digits.length < 4 then .ok (unit leading digits, [])
    else
      match codeUnit? digits with
      | some n => afterUnit checked leading n
      | none => .error .invalidEscape
  | pairEscape high =>
    if Char.ofUInt8 b = '\\' then .ok (pairUnit high, []) else .error .unexpectedEndOfEscape
  | pairUnit high =>
    if Char.ofUInt8 b = 'u' then .ok (unit (some high) [], []) else .error .unexpectedEndOfEscape

end StringState

namespace Reader

/-- Reads up to the closing quotation mark; `written` holds the bytes of the text so far, the last
one first. -/
def stringBytes (checked : Bool) :
    StringState → (written : List UInt8) → Reader (List UInt8)
  | _, _, [] => .error .endInString
  | state, written, b :: rest =>
    if state = .plain ∧ Char.ofUInt8 b = '"' then .ok (written.reverse, rest)
    else
      match state.step checked b with
      | .ok (state, completed) => stringBytes checked state (completed.reverse ++ written) rest
      | .error e => .error e

/-- Reads a string whose opening quotation mark is in front. -/
def string : Reader String := do
  drop
  let bs ← stringBytes true .plain []
  match Text.ofBytes? bs with
  | some s => return s
  | none => fail .invalidCodePoint

/-- Passes over a string whose opening quotation mark is in front. -/
def skipString : Reader Unit := do
  drop
  discard (stringBytes false .plain [])

end Reader

end Collate.Json
