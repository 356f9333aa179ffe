/-!
# Numerals

Decimal numerals as people type them: a run of the digits `0` to `9`, with a sign where one is
allowed.  Leading zeros do no harm; blanks, separators and digits of other scripts are refused.
-/

namespace Collate.Text

-- Powers are those of the core library, whatever else is in scope; for this the type of an exponent
-- is written out.
attribute [local instance (2000)] instPowNat

/-- The value of a decimal digit. -/
def digit? (c : Char) : Option Nat :=
  if '0' ≤ c ∧ c ≤ '9' then some (c.toNat - '0'.toNat) else none

/-- The number that is `n` followed by the digits `cs`. -/
def appendDigits? (n : Nat) : List Char → Option Nat
  | [] => some n
  | c :: cs => (digit? c).bind fun d => appendDigits? (10 * n + d) cs

/-- A run of at least one digit. -/
def natural? : List Char → Option Nat
  | [] => none
  | cs => appendDigits? 0 cs

/-- A natural numeral, or one after a minus sign. -/
def integer? : List Char → Option Int
  | '-' :: cs => (natural? cs).map fun n => -n
  | cs => (natural? cs).map Int.ofNat

/-- A natural numeral, or one after a plus sign, that fits 64 bits. -/
def word? (s : String) : Option UInt64 :=
  let digits := match s.toList with
    | '+' :: cs => cs
    | cs => cs
  (natural? digits).bind fun n => if n < 2 ^ (64 : Nat) then some (UInt64.ofNat n) else none

/-! ### Writing -/

/-- The character for a digit below ten. -/
def digitChar (d : Nat) : Char := Char.ofNat (d + '0'.toNat)

/-- The digits of a number, without leading zeros. -/
def decimalDigits (n : Nat) : List Char :=
  if n < 10 then [digitChar n] else decimalDigits (n / 10) ++ [digitChar (n % 10)]

/-- The numeral for an integer, with a minus sign where it is negative. -/
def decimal : Int → String
  | .ofNat n => String.ofList (decimalDigits n)
  | .negSucc n => String.ofList ('-' :: decimalDigits (n + 1))

end Collate.Text
