import Collate.Json.Reader
import Collate.Number.Binary64

/-!
# Numbers in JSON text

A numeral has a sign, digits, digits after a point and an exponent, of which all but the first
digits may be missing.  Plain digits that fit 64 bits are an integer; every other numeral is a
number of the format binary64, made from the leading digits that fit 64 bits and a power of ten.
-/

namespace Collate.Json

-- Powers are those of the core library, whatever else is in scope; for this the type of an exponent
-- is written out.
attribute [local instance (2000)] instPowNat

/-- The parts of a number as they are written. -/
structure Numeral where
  negative : Bool
  whole : List Nat
  /-- the digits after the point; none where there is no point -/
  fraction : List Nat
  /-- the sign and the digits after `e` -/
  exponent : Option (Bool × List Nat)
  deriving DecidableEq, Repr

/-- A number that has been read. -/
inductive Number
  | integer (value : Int)
  | float (value : Binary64)
  deriving DecidableEq, Repr

namespace Number

/-- What a number is called where something else is expected. -/
def found : Number → Found
  | integer n => .integer n
  | float x => .float x.text

end Number

namespace Numeral

/-- The number that digits spell. -/
def value (digits : List Nat) : Nat := digits.foldl (fun n d => 10 * n + d) 0

/-- Appends digits to a number as long as it stays below `2 ^ 64`; gives the digits left over. -/
def appendFitting (n : Nat) : List Nat → Nat × List Nat
  | [] => (n, [])
  | d :: ds =>
    if 10 * n + d < 2 ^ (64 : Nat) then appendFitting (10 * n + d) ds else (n, d :: ds)

/-- Divides by ten to the power `places`, in steps of 308 places while anything is left. -/
def shiftDown (x : Binary64) (places : Nat) : Option Binary64 :=
  if x.mantissa = 0 then some x
  else if places ≤ 308 then (Binary64.powerOfTen places).bind x.div
  else
    ((Binary64.powerOfTen 308).bind x.div).bind fun y => shiftDown y (places - 308)
termination_by places
decreasing_by omega

/-- The number `n` times ten to the power `places`; nothing if that is out of range. -/
def shift (n : Nat) (places : Int) : Option Binary64 := do
  let x ← Binary64.round n 1
  if places < 0 then shiftDown x (-places).toNat
  else if places ≤ 308 then (Binary64.powerOfTen places.toNat).bind x.mul
  else if n = 0 then some x
  else none

/-- The number without its sign, if it is not an integer. -/
def magnitude (t : Numeral) : Option Binary64 :=
  let (n, beyond) := appendFitting 0 t.whole
  let (n, ignored) := appendFitting n t.fraction
  let places : Int := beyond.length - (t.fraction.length - ignored.length : Nat)
  match t.exponent with
  | none => shift n places
  | some (negative, digits) =>
    let e := value digits
    if e < 2 ^ (31 : Nat) then shift n (if negative then places - e else places + e)
    else if negative ∨ n = 0 then some ⟨false, 0, -1074⟩
    else none

/-- The integer that is written, if there is neither a point nor an exponent and it fits 64 bits.
A zero after a minus sign is not an integer. -/
def integer? (t : Numeral) : Option Int :=
  if t.fraction = [] ∧ t.exponent = none then
    let n := value t.whole
    if t.negative then if 0 < n ∧ n ≤ 2 ^ (63 : Nat) then some (-(n : Int)) else none
    else if n < 2 ^ (64 : Nat) then some n else none
  else none

/-- The number that is written. -/
def number (t : Numeral) : Except ReadError Number :=
  match t.integer? with
  | some n => .ok (.integer n)
  | none =>
    match t.magnitude with
    | some x => .ok (.float (if t.negative then x.negate else x))
    | none => .error .numberOutOfRange

end Numeral

namespace Reader

/-- A byte that is a decimal digit. -/
def isDigit (b : UInt8) : Bool := (Char.ofUInt8 b).isDigit

/-- Reads digits as far as they go. -/
def digits : Reader (List Nat) := fun bs =>
  .ok ((bs.takeWhile isDigit).map fun b => b.toNat - 48, bs.dropWhile isDigit)

/-- Reads at least one digit; a text that ends here fails with `atEnd`. -/
def someDigits (atEnd : ReadError) : Reader (List Nat) := do
  match ← digits with
  | [] =>
    match ← peek? with
    | none => fail atEnd
    | some _ => fail .invalidNumber
  | ds => return ds

/-- Reads the digits before the point, which start with zero only where that is all. -/
def wholeDigits (atEnd : ReadError) : Reader (List Nat) := do
  match ← someDigits atEnd with
  | 0 :: _ :: _ => fail .invalidNumber
  | ds => return ds

/-- Reads the digits after a point, if there is one. -/
def fractionDigits (atEnd : ReadError) : Reader (List Nat) := do
  if (← peek?) = some '.' then
    drop
    someDigits atEnd
  else return []

/-- Reads an exponent, if there is one. -/
def exponentPart (atEnd : ReadError) : Reader (Option (Bool × List Nat)) := do
  let mark ← peek?
  if mark = some 'e' ∨ mark = some 'E' then
    drop
    let sign ← peek?
    if sign = some '+' ∨ sign = some '-' then drop
    let ds ← someDigits atEnd
    return some (sign = some '-', ds)
  else return none

/-- Reads a numeral; where its text ends too early it fails with `atEnd`. -/
def numeral (atEnd : ReadError) : Reader Numeral := do
  let negative := (← peek?) = some '-'
  if negative then drop
  let whole ← wholeDigits atEnd
  let fraction ← fractionDigits atEnd
  let exponent ← exponentPart atEnd
  return ⟨negative, whole, fraction, exponent⟩

/-- Reads a number. -/
def number : Reader Number := do
  let t ← numeral .endInValue
  ofExcept t.number

/-- Passes over a number without making it. -/
def skipNumber : Reader Unit := discard (numeral .invalidNumber)

end Reader

end Collate.Json
