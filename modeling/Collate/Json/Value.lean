import Collate.Bytes.Hex
import Collate.Text.Numeral

/-!
# JSON values and their text

Values whose numbers are integers, and the two ways of writing them: on one line without blanks
(`Json.compact`), and on many lines with two blanks for each level (`Json.pretty`).  Members of an
object are written in the order in which they are listed.
-/

namespace Collate

/-- A JSON value whose numbers are integers. -/
inductive Json
  | null
  | bool (value : Bool)
  | number (value : Int)
  | string (value : String)
  | array (items : List Json)
  | object (members : List (String × Json))

namespace Json

/-- Where line breaks and blanks go. -/
inductive Spacing
  /-- none at all -/
  | tight
  /-- items on lines of their own, `depth` levels deep -/
  | lines (depth : Nat)

namespace Spacing

/-- The spacing one level further in. -/
def deeper : Spacing → Spacing
  | tight => tight
  | lines depth => lines (depth + 1)

/-- What stands before an item or a closing bracket. -/
def newline : Spacing → String
  | tight => ""
  | lines depth => String.ofList ('\n' :: List.replicate (2 * depth) ' ')

/-- What stands between the name and the value of a member. -/
def colon : Spacing → String
  | tight => ":"
  | lines _ => ": "

end Spacing

/-- How a character stands in a string: quotation mark, backslash and controls are escaped. -/
def escapeChar (c : Char) : List Char :=
  match c with
  | '"' => ['\\', '"']
  | '\\' => ['\\', '\\']
  | '\x08' => ['\\', 'b']
  | '\x0c' => ['\\', 'f']
  | '\n' => ['\\', 'n']
  | '\r' => ['\\', 'r']
  | '\t' => ['\\', 't']
  | c => if c.toNat < 0x20 then '\\' :: 'u' :: Hex.digits 4 c.toNat else [c]

/-- A text as a JSON string. -/
def quote (s : String) : String :=
  String.ofList ('"' :: (s.toList.flatMap escapeChar ++ ['"']))

mutual

/-- The text of a value. -/
def render (spacing : Spacing) : Json → String
  | null => "null"
  | bool true => "true"
  | bool false => "false"
  | number n => Text.decimal n
  | string s => quote s
  | array [] => "[]"
  | array (item :: items) =>
    "[" ++ spacing.deeper.newline ++ render spacing.deeper item ++
      renderItems spacing.deeper items ++ spacing.newline ++ "]"
  | object [] => "\x7b\x7d"
  | object ((name, value) :: members) =>
    "\x7b" ++ spacing.deeper.newline ++ quote name ++ spacing.deeper.colon ++
      render spacing.deeper value ++ renderMembers spacing.deeper members ++
        spacing.newline ++ "\x7d"

/-- The text of the items after the first one. -/
def renderItems (spacing : Spacing) : List Json → String
  | [] => ""
  | item :: items => "," ++ spacing.newline ++ render spacing item ++ renderItems spacing items

/-- The text of the members after the first one. -/
def renderMembers (spacing : Spacing) : List (String × Json) → String
  | [] => ""
  | (name, value) :: members =>
    "," ++ spacing.newline ++ quote name ++ spacing.colon ++ render spacing value ++
      renderMembers spacing members

end

/-- The text of a value on one line. -/
def compact (value : Json) : String := render .tight value

/-- The text of a value on many lines, with two blanks for each level. -/
def pretty (value : Json) : String := render (.lines 0) value

/-- A natural number as a value. -/
def ofNat (n : Nat) : Json := number (Int.ofNat n)

end Json

end Collate
