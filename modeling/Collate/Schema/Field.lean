import Collate.Schema.DataType

/-!
# Fields

A field of a schema: a name, a declared type, and whether the column may hold nulls.
-/

namespace Collate

/-- A declared column of a schema. -/
structure Field where
  name : String
  type : DataType
  nullable : Bool := true
  deriving DecidableEq, Repr

end Collate
