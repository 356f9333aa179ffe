import Collate.Text.Quoted

/-!
# Errors of reading JSON

What can be wrong with a JSON text that is read as a value of a known shape: the text is not
well formed, or it spells a value of another shape.  Errors carry no position.
-/

namespace Collate.Json

/-- What a text spells where something else is expected. -/
inductive Found
  | null
  | bool (value : Bool)
  | integer (value : Int)
  /-- a number that is not an integer of 64 bits, by its decimal spelling -/
  | float (spelling : String)
  | string (value : String)
  | sequence
  | map
  /-- a variant without a payload -/
  | unitVariant
  deriving DecidableEq, Repr

/-- How a finding is named. -/
def Found.text : Found → String
  | null => "null"
  | bool value => s!"boolean `{value}`"
  | integer value => s!"integer `{value}`"
  | float spelling => s!"floating point `{spelling}`"
  | string value => s!"string {Text.quoted value}"
  | sequence => "sequence"
  | map => "map"
  | unitVariant => "unit variant"

/-- What is wrong with a JSON text. -/
inductive ReadError
  | endInValue
  | endInObject
  | endInList
  | endInString
  | expectedColon
  | expectedListCommaOrEnd
  | expectedObjectCommaOrEnd
  | expectedValue
  /-- a word that is not `null`, `true` or `false` -/
  | expectedWord
  | keyMustBeString
  | trailingComma
  | trailingCharacters
  | invalidNumber
  | numberOutOfRange
  | invalidEscape
  /-- bytes in a string that are not UTF-8 -/
  | invalidCodePoint
  /-- half of a surrogate pair -/
  | loneSurrogate
  | unexpectedEndOfEscape
  | controlCharacter
  /-- containers nest too deep -/
  | tooDeep
  | invalidType (found : Found) (expected : String)
  | invalidValue (found : Found) (expected : String)
  | invalidLength (length : Nat) (expected : String)
  | missingField (name : String)
  | duplicateField (name : String)
  | unknownField (name : String) (known : List String)
  | unknownVariant (name : String) (known : List String)
  deriving DecidableEq, Repr

namespace ReadError

/-- A choice between names. -/
def oneOf : List String → String
  | [] => "nothing"
  | [a] => s!"`{a}`"
  | [a, b] => s!"`{a}` or `{b}`"
  | names => "one of " ++ ", ".intercalate (names.map fun a => s!"`{a}`")

/-- The wording of an error. -/
def message : ReadError → String
  | endInValue => "EOF while parsing a value"
  | endInObject => "EOF while parsing an object"
  | endInList => "EOF while parsing a list"
  | endInString => "EOF while parsing a string"
  | expectedColon => "expected `:`"
  | expectedListCommaOrEnd => "expected `,` or `]`"
  | expectedObjectCommaOrEnd => "expected `,` or `\x7d`"
  | expectedValue => "expected value"
  | expectedWord => "expected ident"
  | keyMustBeString => "key must be a string"
  | trailingComma => "trailing comma"
  | trailingCharacters => "trailing characters"
  | invalidNumber => "invalid number"
  | numberOutOfRange => "number out of range"
  | invalidEscape => "invalid escape"
  | invalidCodePoint => "invalid unicode code point"
  | loneSurrogate => "lone leading surrogate in hex escape"
  | unexpectedEndOfEscape => "unexpected end of hex escape"
  | controlCharacter => "control character (\\u0000-\\u001F) found while parsing a string"
  | tooDeep => "recursion limit exceeded"
  | invalidType found expected => s!"invalid type: {found.text}, expected {expected}"
  | invalidValue found expected => s!"invalid value: {found.text}, expected {expected}"
  | invalidLength length expected => s!"invalid length {length}, expected {expected}"
  | missingField name => s!"missing field `{name}`"
  | duplicateField name => s!"duplicate field `{name}`"
  | unknownField name known => s!"unknown field `{name}`, expected {oneOf known}"
  | unknownVariant name known => s!"unknown variant `{name}`, expected {oneOf known}"

end ReadError

end Collate.Json
