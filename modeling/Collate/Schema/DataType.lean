import Collate.Schema.ColumnType
import Collate.Text.Numeral

/-!
# Data types

The type that a column or a field declares: one that can be sorted, or another one, of which only
the spelling is known.
-/

namespace Collate

-- Powers are those of the core library, whatever else is in scope; for this the type of an exponent
-- is written out.
attribute [local instance (2000)] instPowNat

/-- A declared type. -/
inductive DataType
  /-- a type of column that can be sorted -/
  | column (type : ColumnType)
  /-- any other type, by its spelling -/
  | other (name : String)
  deriving DecidableEq, Repr

namespace DataType

/-- The spelling of a declared type. -/
def name : DataType → String
  | column type => type.name ++ type.parameters ", "
  | other name => name

instance : ToString DataType := ⟨name⟩

/-- The precision and scale between `(` and `)`, separated by a comma and a blank. -/
def parameters? (cs : List Char) : Option (UInt8 × Int8) := do
  let precision ← Text.natural? (cs.takeWhile (· ≠ ','))
  guard (precision < 2 ^ (8 : Nat))
  match cs.dropWhile (· ≠ ',') with
  | ',' :: ' ' :: rest => do
    let scale ← Text.integer? (rest.takeWhile (· ≠ ')'))
    guard (-2 ^ (7 : Nat) ≤ scale ∧ scale < 2 ^ (7 : Nat))
    guard (rest.dropWhile (· ≠ ')') = [')'])
    return (UInt8.ofNat precision, Int8.ofInt scale)
  | _ => none

/-- The decimal type with a given spelling. -/
def decimal? (s : String) : Option ColumnType := do
  let opening := "Decimal128(".toList
  guard (opening.isPrefixOf s.toList)
  let (precision, scale) ← parameters? (s.toList.drop opening.length)
  return .decimal128 precision scale

/-- The declared type with a given spelling. -/
def ofName (s : String) : DataType :=
  match ColumnType.simple.find? (·.name = s) with
  | some type => column type
  | none =>
    match decimal? s with
    | some type => column type
    | none => other s

/-- The column type, for a declared type that can be sorted. -/
def column? : DataType → Option ColumnType
  | column type => some type
  | other _ => none

end DataType

end Collate
