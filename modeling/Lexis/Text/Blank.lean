/-
# Blanks and letter case

What is trimmed from both ends of a setting before it is read, and how its letters
are compared.
-/

import Lexis.Text

namespace Lexis
namespace Text

/-- The blank characters as ranges of code points: the controls and separators of
ASCII, the next-line control, and the space and line separators beyond. -/
def blankRanges : List (Nat × Nat) :=
  [(0x0009, 0x000D), (0x001C, 0x0020), (0x0085, 0x0085), (0x00A0, 0x00A0), (0x1680, 0x1680),
   (0x2000, 0x200A), (0x2028, 0x2029), (0x202F, 0x202F), (0x205F, 0x205F), (0x3000, 0x3000)]

/-- Whether a character is blank. -/
def isBlank (c : Char) : Bool :=
  blankRanges.any fun range => range.1 ≤ c.toNat && c.toNat ≤ range.2

/-- The text without the blanks at either end. -/
def trim (t : Text) : Text :=
  ((t.dropWhile isBlank).reverse.dropWhile isBlank).reverse

/-- The text with `A` to `Z` in lower case and all else as it is. -/
def lower (t : Text) : Text := t.map Char.toLower

/-- The letter that a character stands for when case is ignored.  Besides `A` to
`Z`, the long s and the Kelvin sign stand for a plain letter; no other character
does, so comparison with a word of plain letters needs no more. -/
def foldCase (c : Char) : Char :=
  if c = '\u017f' then 's' else if c = '\u212a' then 'k' else c.toLower

end Text
end Lexis
