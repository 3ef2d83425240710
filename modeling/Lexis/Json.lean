/-
# JSON documents

Lists of flat records as JSON: one member on each line, set in by two blanks for each
level.  Only printable ASCII is used.  In a string the quote, the backslash and the five
controls with a letter are escaped by name, and every other character outside U+0020 to
U+007E by its UTF-16 units, each as `\u` and four digits.
-/

import Lexis.Text.Decimal
import Lexis.Text.Hex

namespace Lexis
namespace Json

/-- A value without parts. -/
inductive Scalar where
  | text (value : Text)
  | integer (value : Int)
deriving DecidableEq, Repr

/-- An object: names and values in their order. -/
abbrev Record := List (Text × Scalar)

/-- The UTF-16 units of a character: one below U+10000, else a surrogate pair. -/
def units16 (c : Char) : List Nat :=
  if c.toNat < 0x10000 then [c.toNat]
  else [0xD800 + (c.toNat - 0x10000) / 0x400, 0xDC00 + (c.toNat - 0x10000) % 0x400]

/-- One character inside a string. -/
def escape (c : Char) : Text :=
  if c = '"' then ['\\', '"']
  else if c = '\\' then ['\\', '\\']
  else if c = '\n' then ['\\', 'n']
  else if c = '\r' then ['\\', 'r']
  else if c = '\t' then ['\\', 't']
  else if c = '\x0c' then ['\\', 'f']
  else if c = '\x08' then ['\\', 'b']
  else if 0x20 ≤ c.toNat ∧ c.toNat ≤ 0x7E then [c]
  else (units16 c).flatMap fun unit => '\\' :: 'u' :: Hex.digits 4 unit

/-- A string with its quotes. -/
def string (t : Text) : Text := '"' :: (t.flatMap escape ++ ['"'])

/-- A value. -/
def scalar : Scalar → Text
  | .text value => string value
  | .integer value => Decimal.ofInt value

/-- One member of an object that stands in an array. -/
def member (m : Text × Scalar) : Text :=
  "    ".toList ++ string m.1 ++ [':', ' '] ++ scalar m.2

/-- An object that stands in an array. -/
def record (r : Record) : Text :=
  "  \x7b\n".toList ++ List.intercalate [',', '\n'] (r.map member) ++ "\n  \x7d".toList

/-- An array of objects. -/
def document : List Record → Text
  | [] => ['[', ']']
  | records => ['[', '\n'] ++ List.intercalate [',', '\n'] (records.map record) ++ ['\n', ']']

end Json
end Lexis
