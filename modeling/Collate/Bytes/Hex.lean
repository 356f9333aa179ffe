/-!
# Hexadecimal text

Bytes written as pairs of lower-case hexadecimal digits, most significant digit first.
-/

namespace Collate.Hex

/-- The lower-case digit for a value below sixteen. -/
def digit (d : Nat) : Char :=
  if d < 10 then Char.ofNat (d + 48) else Char.ofNat (d + 87)

/-- The value of a hexadecimal digit of either case. -/
def value? (c : Char) : Option Nat :=
  if '0' ≤ c ∧ c ≤ '9' then some (c.toNat - 48)
  else if 'a' ≤ c ∧ c ≤ 'f' then some (c.toNat - 87)
  else if 'A' ≤ c ∧ c ≤ 'F' then some (c.toNat - 55)
  else none

/-- The digits of the lowest `width` hexadecimal places of `n`. -/
def digits : (width n : Nat) → List Char
  | 0, _ => []
  | width + 1, n => digits width (n / 16) ++ [digit (n % 16)]

/-- Two digits for each byte. -/
def encode (bs : List UInt8) : String :=
  String.ofList (bs.flatMap fun b => digits 2 b.toNat)

/-- Reads pairs of digits; a lone digit or another character is refused. -/
def decodeChars? : List Char → Option (List UInt8)
  | [] => some []
  | [_] => none
  | hi :: lo :: rest => do
    let h ← value? hi
    let l ← value? lo
    let bs ← decodeChars? rest
    return UInt8.ofNat (16 * h + l) :: bs

/-- The bytes that a hexadecimal text spells. -/
def decode? (s : String) : Option (List UInt8) := decodeChars? s.toList

@[simp] theorem length_digits (width n : Nat) : (digits width n).length = width := by
  induction width generalizing n with
  | zero => rfl
  | succ width ih => simp [digits, ih]

end Collate.Hex
