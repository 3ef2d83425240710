/-
# Fixed-width numbers in base sixteen

Lower-case digits, padded with zeros to the width asked for.  A number that needs
more digits loses its leading ones, so callers choose the width by the range.
-/

import Lexis.Text

namespace Lexis
namespace Hex

/-- The character of a digit below sixteen, in lower case. -/
def digit (n : Nat) : Char :=
  if n < 10 then Char.ofNat (48 + n) else Char.ofNat (87 + n)

/-- The last `width` digits of a number. -/
def digits : (width : Nat) → Nat → Text
  | 0, _ => []
  | width + 1, n => digits width (n / 16) ++ [digit (n % 16)]

@[simp]
theorem length_digits (width n : Nat) : (digits width n).length = width := by
  induction width generalizing n with
  | zero => rfl
  | succ width ih => simp [digits, ih]

end Hex
end Lexis
