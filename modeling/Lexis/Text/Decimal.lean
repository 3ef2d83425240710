/-
# Integers in base ten

The shortest decimal form: no leading zero, and a minus sign below zero.  An integer of any
size has one, but only up to `maxDigits` digits may be written (`isWritable`).  Nothing that is
counted in a source comes near that.  A listing, whose tokens may come from outside, asks for
it, and so does the wording for an index out of range; elsewhere integers are taken to be such
as may be written.
-/

import Lexis.Text

namespace Lexis
namespace Decimal

/-- The character of a digit below ten. -/
def digit (n : Nat) : Char := Char.ofNat (48 + n)

/-- A natural number, most significant digit first. -/
def ofNat (n : Nat) : Text :=
  if n < 10 then [digit n] else ofNat (n / 10) ++ [digit (n % 10)]

/-- An integer: the natural number, after a minus sign if it is negative. -/
def ofInt : Int → Text
  | .ofNat n => ofNat n
  | .negSucc n => '-' :: ofNat (n + 1)

theorem ofInt_natCast (n : Nat) : ofInt n = ofNat n := rfl

/-! ## Too many digits -/

/-- The most digits that may be written. -/
def maxDigits : Nat := 4300

/-- Whether an integer may be written.  The minus sign is no digit. -/
def isWritable (z : Int) : Bool := (ofNat z.natAbs).length ≤ maxDigits

/-- The wording for an integer that may not be written. -/
def tooLong : Text :=
  "Exceeds the limit (".toList ++ ofNat maxDigits ++
    " digits) for integer string conversion; ".toList ++
    "use sys.set_int_max_str_digits() to increase the limit".toList

theorem length_ofNat_of_lt {n : Nat} (h : n < 10) : (ofNat n).length = 1 := by
  rw [ofNat, if_pos h]
  rfl

theorem isWritable_of_lt {z : Int} (h : z.natAbs < 10) : isWritable z = true := by
  rw [isWritable, length_ofNat_of_lt h]
  decide

end Decimal
end Lexis
