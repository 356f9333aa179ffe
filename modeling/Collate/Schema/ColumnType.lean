/-!
# Column types

The types of column that can be sorted, how the values of each are laid out, and the names under
which a sort plan asks for their storage, builder and native scalar.  `ColumnType.canonical` is the
spelling used in signatures.
-/

namespace Collate

-- Powers are those of the core library, whatever else is in scope; for this the type of an exponent
-- is written out.
attribute [local instance (2000)] instPowNat

/-- A type of column that can be sorted. -/
inductive ColumnType
  | boolean
  | int8
  | int16
  | int32
  | int64
  | uint8
  | uint16
  | uint32
  | uint64
  | float32
  | float64
  | date32
  | date64
  | decimal128 (precision : UInt8) (scale : Int8)
  | utf8
  | largeUtf8
  | binary
  deriving DecidableEq, Repr

/-- A fixed-width format of numbers. -/
inductive NumberFormat
  | int8
  | int16
  | int32
  | int64
  | int128
  | uint8
  | uint16
  | uint32
  | uint64
  | float32
  | float64
  deriving DecidableEq, Repr

/-- How the values of a column are laid out. -/
inductive Layout
  /-- truth values, one bit each -/
  | flag
  /-- fixed-width numbers -/
  | number (format : NumberFormat)
  /-- UTF-8 text of any length -/
  | text
  /-- bytes of any length -/
  | bytes
  deriving DecidableEq, Repr

/-- The family of storage that buffers a column. -/
inductive Container
  | primitive
  | boolean
  | bytes
  deriving DecidableEq, Repr

namespace NumberFormat

/-- The bytes of one value. -/
def width : NumberFormat → Nat
  | int8 | uint8 => 1
  | int16 | uint16 => 2
  | int32 | uint32 | float32 => 4
  | int64 | uint64 | float64 => 8
  | int128 => 16

/-- The short name of the scalar. -/
def name : NumberFormat → String
  | int8 => "i8"
  | int16 => "i16"
  | int32 => "i32"
  | int64 => "i64"
  | int128 => "i128"
  | uint8 => "u8"
  | uint16 => "u16"
  | uint32 => "u32"
  | uint64 => "u64"
  | float32 => "f32"
  | float64 => "f64"

end NumberFormat

namespace Layout

/-- The short name of the scalar, for layouts of fixed width. -/
def native? : Layout → Option String
  | flag => some "bool"
  | number format => some format.name
  | text | bytes => none

/-- The bytes of one value in a contiguous buffer of numbers. -/
def width : Layout → Nat
  | flag => 1
  | number format => format.width
  | text | bytes => 0

/-- The storage that buffers values of this layout. -/
def container : Layout → Container
  | flag => .boolean
  | number _ => .primitive
  | text | bytes => .bytes

end Layout

namespace Container

/-- The name of the family. -/
def name : Container → String
  | primitive => "Primitive"
  | boolean => "Boolean"
  | bytes => "Bytes"

end Container

namespace ColumnType

/-- The layout of a column's values. -/
def layout : ColumnType → Layout
  | boolean => .flag
  | int8 => .number .int8
  | int16 => .number .int16
  | int32 | date32 => .number .int32
  | int64 | date64 => .number .int64
  | uint8 => .number .uint8
  | uint16 => .number .uint16
  | uint32 => .number .uint32
  | uint64 => .number .uint64
  | float32 => .number .float32
  | float64 => .number .float64
  | decimal128 _ _ => .number .int128
  | utf8 | largeUtf8 => .text
  | binary => .bytes

/-- The name of the type without its parameters. -/
def name : ColumnType → String
  | boolean => "Boolean"
  | int8 => "Int8"
  | int16 => "Int16"
  | int32 => "Int32"
  | int64 => "Int64"
  | uint8 => "UInt8"
  | uint16 => "UInt16"
  | uint32 => "UInt32"
  | uint64 => "UInt64"
  | float32 => "Float32"
  | float64 => "Float64"
  | date32 => "Date32"
  | date64 => "Date64"
  | decimal128 _ _ => "Decimal128"
  | utf8 => "Utf8"
  | largeUtf8 => "LargeUtf8"
  | binary => "Binary"

/-- The types without parameters. -/
def simple : List ColumnType :=
  [boolean, int8, int16, int32, int64, uint8, uint16, uint32, uint64, float32, float64, date32,
    date64, utf8, largeUtf8, binary]

/-- The parameters of a decimal type, with `separator` between them; nothing for other types. -/
def parameters (separator : String) : ColumnType → String
  | decimal128 precision scale =>
    "(" ++ toString precision.toNat ++ separator ++ toString scale.toInt ++ ")"
  | _ => ""

/-- The name of a column's element type. -/
def element (t : ColumnType) : String := t.name ++ "Type"

/-- The name of the storage that a sort plan asks for. -/
def storage (t : ColumnType) : String :=
  match t.layout.container with
  | .primitive => "PrimitiveColumn<" ++ t.element ++ ">"
  | .boolean => "BooleanColumn"
  | .bytes => "ByteColumn<" ++ t.element ++ ">"

/-- The name of the builder of result columns that a sort plan asks for. -/
def builder (t : ColumnType) : String :=
  match t.layout.container with
  | .primitive => "PrimitiveBuilder<" ++ t.element ++ ">"
  | .boolean => "BooleanBuilder"
  | .bytes => "GenericByteBuilder<" ++ t.element ++ ">"

/-- The most bytes that the values of a column can have together: in a container of bytes, what its
signed offsets of 32 or 64 bits count. -/
def byteLimit : ColumnType → Nat
  | utf8 | binary => 2 ^ (31 : Nat) - 1
  | largeUtf8 => 2 ^ (63 : Nat) - 1
  | _ => 0

/-- A type whose values have a key of fixed width, so that a radix sort can order them. -/
def isFixedWidth (t : ColumnType) : Bool := t.layout.native?.isSome

/-- A type whose values lie in one contiguous buffer of numbers and can be sorted there. -/
def supportsInPlace (t : ColumnType) : Bool := t.layout.container = .primitive

/-- The spelling of the type in signatures and messages. -/
def canonical (t : ColumnType) : String := t.name.toLower ++ t.parameters ","

instance : ToString ColumnType := ⟨canonical⟩

end ColumnType

end Collate
