import Collate.Schema.ColumnType

/-!
# Sort keys of numbers

A number in a column is a word of bits.  `NumberFormat.sortKey` turns it into a word whose order as
an unsigned number is the order of the values: the sign bit of an integer is turned over, and of a
negative float all bits are.  All floats that are not a number have one key, above all others.
-/

namespace Collate.NumberFormat

-- Powers are those of the core library, whatever else is in scope.
attribute [local instance (2000)] instPowNat

/-- The bits of one value. -/
def bits (f : NumberFormat) : Nat := 8 * f.width

/-- A value as it is stored. -/
abbrev Word (f : NumberFormat) : Type := BitVec f.bits

/-- What the bits of a format mean. -/
inductive Kind
  | unsigned
  | signed
  /-- sign, exponent and a mantissa of so many bits -/
  | float (mantissaBits : Nat)
  deriving DecidableEq, Repr

/-- What the bits of a format mean. -/
def kind : NumberFormat → Kind
  | uint8 | uint16 | uint32 | uint64 => .unsigned
  | int8 | int16 | int32 | int64 | int128 => .signed
  | float32 => .float 23
  | float64 => .float 52

/-- The bits of positive infinity, for a mantissa of so many bits. -/
def infinity (f : NumberFormat) (mantissaBits : Nat) : Nat := 2 ^ (f.bits - 1) - 2 ^ mantissaBits

/-- The bits of the float that stands for all that are not a number. -/
def canonicalNaN (f : NumberFormat) (mantissaBits : Nat) : Nat :=
  f.infinity mantissaBits + 2 ^ (mantissaBits - 1)

/-- The bits of a float that is not a number: more than infinity, whatever the sign. -/
def isNaN (f : NumberFormat) (mantissaBits : Nat) (w : f.Word) : Bool :=
  f.infinity mantissaBits < w.toNat % 2 ^ (f.bits - 1)

/-- A word whose order as an unsigned number is the order of the values. -/
def sortKey (f : NumberFormat) (w : f.Word) : f.Word :=
  match f.kind with
  | .unsigned => w
  | .signed => w ^^^ BitVec.intMin f.bits
  | .float mantissaBits =>
    let w := if f.isNaN mantissaBits w then BitVec.ofNat f.bits (f.canonicalNaN mantissaBits) else w
    if w.msb then ~~~w else w ||| BitVec.intMin f.bits

/-- The order of values. -/
def order (f : NumberFormat) (v w : f.Word) : Ordering :=
  compare (f.sortKey v).toNat (f.sortKey w).toNat

/-- The integer that a word of an integer format stores. -/
def value (f : NumberFormat) (w : f.Word) : Int :=
  match f.kind with
  | .signed => w.toInt
  | _ => w.toNat

/-- The word that stores an integer. -/
def ofValue (f : NumberFormat) (n : Int) : f.Word := BitVec.ofInt f.bits n

end Collate.NumberFormat
