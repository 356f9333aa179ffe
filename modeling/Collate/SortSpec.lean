import Collate.Schema.Field

/-!
# Sort requests

What to sort by and how.  `SortSpec.resolve` checks a list of keys against an output schema once:
every output column has a type that can be sorted, and every key names exactly one of them and
agrees with it on the type.  A `SortSpec` then holds the positions of its keys as indices into its
columns, so nothing that uses it checks them again.
-/

namespace Collate

/-- Where the rows with a null key go. -/
inductive NullOrder
  | first
  | last
  deriving DecidableEq, Repr

/-- Which way the values run. -/
inductive Direction
  | ascending
  | descending
  deriving DecidableEq, Repr

namespace NullOrder

/-- The null order that a flag asks for. -/
def ofFlag (nullsFirst : Bool) : NullOrder := if nullsFirst then first else last

/-- The spelling in signatures. -/
def label : NullOrder → String
  | first => "nulls_first"
  | last => "nulls_last"

end NullOrder

namespace Direction

/-- The direction that a flag asks for. -/
def ofFlag (asc : Bool) : Direction := if asc then ascending else descending

/-- The spelling in signatures. -/
def label : Direction → String
  | ascending => "asc"
  | descending => "desc"

/-- Turns an ascending comparison into one of this direction. -/
def apply (d : Direction) (o : Ordering) : Ordering :=
  match d with
  | ascending => o
  | descending => o.swap

end Direction

/-- Why a sort request is refused. -/
inductive SpecError
  /-- the type cannot be sorted -/
  | unsupported (typeName : String)
  /-- the type of an output field cannot be sorted -/
  | field (name typeName : String)
  | noKeys
  | noFields
  /-- the key names none of the output fields, or several -/
  | keyMatches (key : String) (count : Nat)
  /-- the key and the field that it names differ in type -/
  | keyType (key given declared : String)
  deriving DecidableEq, Repr

namespace SpecError

/-- What every wording of a refusal begins with. -/
def heading : String := "Invalid sort spec: "

/-- The wording for a type that cannot be sorted. -/
def unsupportedText (typeName : String) : String :=
  heading ++ s!"column type {typeName} is not supported by sort kernels"

/-- The wording of a refusal. -/
def message : SpecError → String
  | unsupported typeName => unsupportedText typeName
  | field name typeName => heading ++ s!"field '{name}': {unsupportedText typeName}"
  | noKeys => heading ++ "at least one sort key is required"
  | noFields => heading ++ "output schema has no fields"
  | keyMatches key count => heading ++
    s!"sort key '{key}' matches {count} fields of the output schema, expected exactly one"
  | keyType key given declared =>
    heading ++ s!"sort key '{key}' has type {given} but the schema field has type {declared}"

end SpecError

/-- The column type of a declared type, or the reason why it cannot be sorted. -/
def DataType.sortable (d : DataType) : Except SpecError ColumnType :=
  match d with
  | .column type => .ok type
  | .other name => .error (.unsupported name)

/-- A column of the output of a sort. -/
structure OutputColumn where
  name : String
  type : ColumnType
  nullable : Bool
  deriving DecidableEq, Repr

/-- The field that declares an output column. -/
def OutputColumn.field (c : OutputColumn) : Field := ⟨c.name, .column c.type, c.nullable⟩

/-- A sort request whose keys have been found among its columns. -/
structure SortSpec where
  columns : List OutputColumn
  firstKey : Fin columns.length
  otherKeys : List (Fin columns.length)
  nullOrder : NullOrder
  direction : Direction

namespace SortSpec

/-- The positions of the keys, in order of priority. -/
def keys (spec : SortSpec) : List (Fin spec.columns.length) := spec.firstKey :: spec.otherKeys

/-- The position of a key as a number. -/
def keySlots (spec : SortSpec) : List Nat := spec.keys.map Fin.val

/-- The column that a key names. -/
def column (spec : SortSpec) (i : Fin spec.columns.length) : OutputColumn := spec.columns[i]

/-- The output consists of the only key. -/
def isSingleColumn (spec : SortSpec) : Bool :=
  spec.otherKeys.isEmpty && spec.columns.length == 1

/-- The output column that a field declares. -/
def outputColumn (f : Field) : Except SpecError OutputColumn :=
  match f.type with
  | .column type => .ok ⟨f.name, type, f.nullable⟩
  | .other name => .error (.field f.name name)

/-- The positions of the columns with a given name. -/
def positions (columns : List OutputColumn) (name : String) : List (Fin columns.length) :=
  (List.finRange columns.length).filter fun i => columns[i].name = name

/-- The position of the one column with the key's name, which must have the key's type. -/
def locate (columns : List OutputColumn) (key : Field) : Except SpecError (Fin columns.length) :=
  match positions columns key.name with
  | [i] =>
    if key.type = .column columns[i].type then .ok i
    else .error (.keyType key.name key.type.name (DataType.column columns[i].type).name)
  | found => .error (.keyMatches key.name found.length)

/-- Finds the keys among the fields of the output. -/
def resolve (keys fields : List Field) (nullOrder : NullOrder) (direction : Direction) :
    Except SpecError SortSpec :=
  match keys, fields with
  | [], _ => .error .noKeys
  | _, [] => .error .noFields
  | firstKey :: otherKeys, fields => do
    let columns ← fields.mapM outputColumn
    let first ← locate columns firstKey
    let others ← otherKeys.mapM (locate columns)
    return ⟨columns, first, others, nullOrder, direction⟩

/-- Finds the keys, for callers that carry null order and direction as flags. -/
def ofFlags (keys fields : List Field) (nullsFirst asc : Bool) : Except SpecError SortSpec :=
  resolve keys fields (.ofFlag nullsFirst) (.ofFlag asc)

end SortSpec

end Collate
