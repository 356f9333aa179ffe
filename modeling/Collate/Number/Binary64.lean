/-!
# Numbers with 53 significant bits

The finite numbers of the IEEE 754 format binary64, as a sign, a mantissa and a power of two.
`Binary64.round` takes a positive fraction to the nearest of them, ties to an even mantissa, and
`Binary64.text` spells one with the fewest decimal digits that read back as the same number.
-/

namespace Collate

-- Powers are those of the core library, whatever else is in scope; for this the type of an exponent
-- is written out.
attribute [local instance (2000)] instPowNat

/-- A finite number of the format binary64: `mantissa` times two to the power `exponent`. -/
structure Binary64 where
  negative : Bool
  mantissa : Nat
  exponent : Int
  deriving DecidableEq, Repr

namespace Binary64

/-- The two numbers of a fraction that is `num / den` times two to the power `e`. -/
def scaled (num den : Nat) (e : Int) : Nat × Nat :=
  (num * 2 ^ e.toNat, den * 2 ^ (-e).toNat)

/-- The quotient rounded to the nearest integer, ties to an even one. -/
def roundDiv (num den : Nat) : Nat :=
  let q := num / den
  let r := num % den
  if 2 * r < den then q
  else if 2 * r = den then q + q % 2
  else q + 1

/-- The exponent at which the fraction has 53 bits before the point, or the least exponent. -/
def exponentFor (num den : Nat) : Int :=
  let guess : Int := (Nat.log2 num : Int) - Nat.log2 den - 52
  let (n, d) := scaled num den (-guess)
  max (-1074) (if n < 2 ^ (52 : Nat) * d then guess - 1 else guess)

/-- The nonnegative fraction `num / den` rounded to the format; nothing if that is out of range. -/
def round (num den : Nat) : Option Binary64 :=
  if num = 0 then some ⟨false, 0, -1074⟩
  else
    let e := exponentFor num den
    let (n, d) := scaled num den (-e)
    let m := roundDiv n d
    let (m, e) := if m = 2 ^ (53 : Nat) then (2 ^ (52 : Nat), e + 1) else (m, e)
    if e > 971 then none else some ⟨false, m, e⟩

/-- The number as a fraction, without its sign. -/
def fraction (x : Binary64) : Nat × Nat := scaled x.mantissa 1 x.exponent

/-- The product of two numbers, rounded. -/
def mul (x y : Binary64) : Option Binary64 :=
  let (a, b) := x.fraction
  let (c, d) := y.fraction
  round (a * c) (b * d)

/-- The quotient of two numbers, rounded. -/
def div (x y : Binary64) : Option Binary64 :=
  let (a, b) := x.fraction
  let (c, d) := y.fraction
  round (a * d) (b * c)

/-- The power of ten with exponent `k`, rounded. -/
def powerOfTen (k : Nat) : Option Binary64 := round (10 ^ k) 1

/-- The number with the other sign. -/
def negate (x : Binary64) : Binary64 := { x with negative := !x.negative }

/-! ### Decimal spelling -/

/-- The place of the point: `p` such that the fraction `num / den` is at least ten to the power
`p - 1` and below ten to the power `p`. -/
def decimalPoint (num den : Nat) : Int :=
  if den ≤ num then (Nat.toDigits 10 (num / den)).length
  else
    let places := (Nat.toDigits 10 (den / num)).length
    if den = num * 10 ^ (places - 1) then 2 - places else 1 - places

/-- A decimal number of at most `n` digits between the two bounds, nearest to the fraction
`num / den`, as digits and a power of ten; the bounds are fractions over `4 * den`. -/
def decimalWithin (num den low high : Nat) (inclusive : Bool) (n : Nat) : Option (Nat × Int) :=
  let unit : Int := decimalPoint num den - n
  let (up, down) := (10 ^ (-unit).toNat, 10 ^ unit.toNat)
  let floor := num * up / (den * down)
  let within (c : Nat) : Bool :=
    let at4 := 4 * c * den * down
    if inclusive then low * up ≤ at4 && at4 ≤ high * up else low * up < at4 && at4 < high * up
  let nearer := 2 * num * up ≤ (2 * floor + 1) * den * down
  match within floor, within (floor + 1) with
  | true, true => some (if nearer then floor else floor + 1, unit)
  | true, false => some (floor, unit)
  | false, true => some (floor + 1, unit)
  | false, false => none

/-- The fewest decimal digits that read back as the number, which is not zero. -/
def shortest (x : Binary64) : Nat × Int :=
  let (num, den) := x.fraction
  let (unit, _) := scaled 1 1 x.exponent
  let low := 4 * num -
    (if x.mantissa = 2 ^ (52 : Nat) ∧ x.exponent ≠ -1074 then unit else 2 * unit)
  let high := 4 * num + 2 * unit
  let found := (List.range 17).findSome? fun n =>
    decimalWithin num den low high (x.mantissa % 2 = 0) (n + 1)
  found.getD (num / den, 0)

/-- The digits of a number without its trailing zeros, and how many there were. -/
def significant (n : Nat) : List Char × Nat :=
  let reversed := (Nat.toDigits 10 n).reverse
  let kept := reversed.dropWhile (· = '0')
  (kept.reverse, reversed.length - kept.length)

/-- The spelling of digits that are followed by `zeros` places: with a point for sixteen places
before it and four zeros after it at most, otherwise with an exponent, which has a sign. -/
def spell (digits : List Char) (zeros : Int) : List Char :=
  let point := (digits.length : Int) + zeros
  if 0 ≤ zeros ∧ point ≤ 16 then digits ++ List.replicate zeros.toNat '0' ++ ['.', '0']
  else if 0 < point ∧ point ≤ 16 then
    digits.take point.toNat ++ ['.'] ++ digits.drop point.toNat
  else if -5 < point ∧ point ≤ 0 then
    ['0', '.'] ++ List.replicate (-point).toNat '0' ++ digits
  else
    let sign := if 0 < point then ['+'] else []
    let exponent := 'e' :: (sign ++ (toString (point - 1)).toList)
    match digits with
    | [d] => d :: exponent
    | d :: rest => d :: '.' :: (rest ++ exponent)
    | [] => exponent

/-- The spelling of a number. -/
def text (x : Binary64) : String :=
  let sign := if x.negative then "-" else ""
  if x.mantissa = 0 then sign ++ "0.0"
  else
    let (n, zeros) := x.shortest
    let (digits, trailing) := significant n
    sign ++ String.ofList (spell digits (zeros + trailing))

end Binary64

end Collate
