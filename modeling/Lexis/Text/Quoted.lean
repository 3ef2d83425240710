/-
# Quoted texts

A text is shown between quotes so that it stays on one line and can be read back:

| character | written as |
| --- | --- |
| the quote in use, a backslash | itself after a backslash |
| line feed, carriage return, tab | `\n`, `\r`, `\t` |
| unprintable, below U+0100 | `\x` and two digits |
| unprintable, below U+10000 | `\u` and four digits |
| unprintable, above | `\U` and eight digits |
| any other | itself |

The quote is a single one, unless the text holds a single quote and no double quote.
-/

import Lexis.Text.Hex
import Lexis.Text.Printable

namespace Lexis
namespace Quoted

/-- The quote that a text is put in. -/
def delimiter (t : Text) : Char :=
  if t.contains '\'' && !t.contains '"' then '"' else '\''

/-- One character inside quotes. -/
def escape (quote c : Char) : Text :=
  if c = quote ∨ c = '\\' then ['\\', c]
  else if c = '\n' then ['\\', 'n']
  else if c = '\r' then ['\\', 'r']
  else if c = '\t' then ['\\', 't']
  else if Text.isPrintable c then [c]
  else if c.toNat < 0x100 then '\\' :: 'x' :: Hex.digits 2 c.toNat
  else if c.toNat < 0x10000 then '\\' :: 'u' :: Hex.digits 4 c.toNat
  else '\\' :: 'U' :: Hex.digits 8 c.toNat

/-- A text between quotes. -/
def quote (t : Text) : Text :=
  delimiter t :: (t.flatMap (escape (delimiter t)) ++ [delimiter t])

end Quoted
end Lexis
