import Collate.Bytes.Hex
import Collate.Text.Printable

/-!
# Quoted text

A text between quotation marks as messages show it: quotation marks, backslashes and the common
controls are escaped with a backslash, and every other character that has no shape of its own is
spelled by its code point.
-/

namespace Collate.Text

/-- The hexadecimal digits of a number without leading zeros. -/
def hexadecimal (n : Nat) : List Char :=
  (Hex.digits 6 n).dropWhile (· = '0')

/-- How a character stands between quotation marks. -/
def quotedChar (c : Char) : List Char :=
  match c with
  | '"' => ['\\', '"']
  | '\\' => ['\\', '\\']
  | '\n' => ['\\', 'n']
  | '\r' => ['\\', 'r']
  | '\t' => ['\\', 't']
  | '\x00' => ['\\', '0']
  | c => if isPrintable c then [c] else ['\\', 'u', '\x7b'] ++ hexadecimal c.toNat ++ ['\x7d']

/-- A text between quotation marks. -/
def quoted (s : String) : String :=
  "\"" ++ String.ofList (s.toList.flatMap quotedChar) ++ "\""

end Collate.Text
