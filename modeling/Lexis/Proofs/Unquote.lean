/-
# Reading quoted texts

A quoted text is read by rules that do not depend on how it was quoted: either quote may
stand around it, and a character may be written as itself, by name or by its code.

| after a backslash | stands for |
| --- | --- |
| a backslash or a quote | itself |
| `n`, `r`, `t` | line feed, carriage return, tab |
| `x`, `u`, `U` | the character of a code of 2, 4, 8 digits |

Every text is read again as it was quoted, whatever follows the quotes (`decode_quote`).
-/

import Lexis.Proofs.Decoder

namespace Lexis
namespace Quoted

/-- The characters that are written by one character after a backslash. -/
def names : List (Char × Char) :=
  [('\\', '\\'), ('\'', '\''), ('"', '"'), ('n', '\n'), ('r', '\r'), ('t', '\t')]

/-- The letters that announce a code, with its number of digits. -/
def widths : List (Char × Nat) := [('x', 2), ('u', 4), ('U', 8)]

/-- Takes what follows a backslash. -/
def afterBackslash : Decoder Char
  | [] => none
  | c :: rest =>
    match widths.lookup c with
    | some width => do
      let (code, rest) ← Hex.decode width rest
      (Text.charOf? code).map fun a => (a, rest)
    | none => (names.lookup c).map fun a => (a, rest)

/-- Takes one character inside quotes. -/
def character : Decoder Char
  | [] => none
  | c :: rest => if c = '\\' then afterBackslash rest else some (c, rest)

/-- Takes a text with the quotes around it. -/
def decode : Decoder Text
  | [] => none
  | c :: rest => if c = '\'' ∨ c = '"' then Decoder.upTo c character rest else none

/-- A code is read if it has the digits that its letter announces. -/
theorem character_code (letter : Char) {a : Char} {width : Nat}
    (hwidth : widths.lookup letter = some width) (hcode : a.toNat < 16 ^ width) (rest : Text) :
    character ('\\' :: letter :: (Hex.digits width a.toNat ++ rest)) = some (a, rest) := by
  show afterBackslash (letter :: (Hex.digits width a.toNat ++ rest)) = some (a, rest)
  simp only [afterBackslash, hwidth, Hex.decode_digits hcode, Option.bind_eq_bind,
    Option.bind_some, Text.charOf?_toNat, Option.map_some]

/-- A character that was written inside quotes is read again. -/
theorem character_escape {q : Char} (hq : q = '\'' ∨ q = '"') (a : Char) (rest : Text) :
    character (escape q a ++ rest) = some (a, rest) := by
  unfold escape
  split_ifs with hself hfeed hreturn htab _ hbyte hword
  · rcases hself with rfl | rfl
    · rcases hq with rfl | rfl
      · rfl
      · rfl
    · rfl
  · rw [hfeed]
    rfl
  · rw [hreturn]
    rfl
  · rw [htab]
    rfl
  · have ha : a ≠ '\\' := fun hslash => hself (.inr hslash)
    exact if_neg ha
  · exact character_code 'x' rfl hbyte rest
  · exact character_code 'u' rfl hword rest
  · exact character_code 'U' rfl a.val.toNat_lt rest

/-- Nothing is written with the closing quote in front. -/
theorem head?_escape_ne {q : Char} (hq : q = '\'' ∨ q = '"') (a : Char) :
    (escape q a).head?.any (· != q) = true := by
  have hslash : ('\\' != q) = true := by rcases hq with rfl | rfl <;> rfl
  unfold escape
  split_ifs with hself
  · exact hslash
  · exact hslash
  · exact hslash
  · exact hslash
  · have ha : a ≠ q := fun hquote => hself (.inl hquote)
    exact bne_iff_ne.mpr ha
  · exact hslash
  · exact hslash
  · exact hslash

theorem delimiter_eq (t : Text) : delimiter t = '\'' ∨ delimiter t = '"' := by
  unfold delimiter
  split
  · exact .inr rfl
  · exact .inl rfl

/-- **A quoted text is read again**, whatever it quotes and whatever follows it. -/
theorem decode_quote (t rest : Text) : decode (quote t ++ rest) = some (t, rest) := by
  have hdelimiter := delimiter_eq t
  rw [quote, List.cons_append, List.append_assoc, List.singleton_append, decode,
    if_pos hdelimiter]
  exact Decoder.upTo_flatMap (character_escape hdelimiter) (head?_escape_ne hdelimiter) t rest

/-- Both quotes, a backslash, a line feed, and of two characters beyond ASCII one that is not
printable and one that is. -/
example : quote ['\'', '"', '\\', '\n', '\u200b', 'é'] = "'\\'\"\\\\\\n\\u200bé'".toList := by
  decide +kernel

end Quoted
end Lexis
