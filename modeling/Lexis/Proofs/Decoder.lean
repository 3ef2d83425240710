/-
# Decoders

A decoder takes a value in its written form from the start of a text, and leaves the rest of
the text.  What is written is decoded again, whatever follows it that does not carry it on:

| decoder | takes |
| --- | --- |
| `Hex.decode width` | so many digits in base sixteen, letters in either case |
| `Decimal.digits` | as many digits in base ten as there are, but at least one |
| `Decimal.natural` | the same, as a number |
| `Decimal.signed unsigned` | what `unsigned` takes, maybe after a minus sign |
| `Decoder.upTo quote item` | characters, each as `item` takes it, up to a quote |

Between what is taken there may be space (`Text.skipSpace`).
-/

import Lexis.Proofs.Plain
import Lexis.Proofs.Reading
import Mathlib.Algebra.Group.Nat.Defs

namespace Lexis

/-- What takes a value from the start of a text and leaves the rest. -/
abbrev Decoder (α : Type) := Text → Option (α × Text)

/-- The character of a code point.  Surrogates have none. -/
def Text.charOf? (code : Nat) : Option Char :=
  if code.isValidChar then some (Char.ofNat code) else none

theorem Text.charOf?_toNat (c : Char) : charOf? c.toNat = some c := by
  have hvalid : c.toNat.isValidChar := c.valid
  rw [charOf?, if_pos hvalid, Char.ofNat_toNat]

/-! ## Space -/

namespace Text

/-- Space, tab, line feed or carriage return. -/
def isSpace (c : Char) : Bool := [' ', '\t', '\n', '\r'].contains c

/-- The text from its first character on that is no space. -/
def skipSpace (t : Text) : Text := t.dropWhile isSpace

/-- The text starts with a character that is no space. -/
def IsFlush (t : Text) : Prop := t.head?.any (!isSpace ·) = true

theorem skipSpace_append {gap t : Text} (hgap : ∀ c ∈ gap, isSpace c = true) (ht : t.IsFlush) :
    skipSpace (gap ++ t) = t := by
  cases t with
  | nil => cases ht
  | cons c t =>
    have hc : ¬ isSpace c = true := by simpa [IsFlush] using ht
    rw [skipSpace, List.dropWhile_append_of_pos hgap, List.dropWhile_cons_of_neg hc]

theorem IsFlush.append {t : Text} (h : t.IsFlush) (rest : Text) : (t ++ rest).IsFlush := by
  cases t with
  | nil => cases h
  | cons c t => exact h

end Text

/-! ## Base sixteen -/

namespace Hex

/-- The value of a digit. -/
def value? (c : Char) : Option Nat :=
  if '0' ≤ c ∧ c ≤ '9' then some (c.toNat - 48)
  else if 'a' ≤ c ∧ c ≤ 'f' then some (c.toNat - 87)
  else if 'A' ≤ c ∧ c ≤ 'F' then some (c.toNat - 55)
  else none

/-- The number that digits stand for. -/
def number? (t : Text) : Option Nat :=
  t.foldlM (fun n c => (value? c).map (16 * n + ·)) 0

/-- Takes so many digits. -/
def decode (width : Nat) : Decoder Nat := fun t =>
  if width ≤ t.length then (number? (t.take width)).map fun n => (n, t.drop width) else none

theorem value?_digit {n : Nat} (h : n < 16) : value? (digit n) = some n := by
  have hall : ∀ n < 16, value? (digit n) = some n := by decide
  exact hall n h

theorem number?_digits {width n : Nat} (h : n < 16 ^ width) : number? (digits width n) = some n := by
  induction width generalizing n with
  | zero =>
    obtain rfl : n = 0 := by omega
    rfl
  | succ width ih =>
    have hleading := ih (n := n / 16) (by omega)
    rw [number?] at hleading
    rw [number?, digits, List.foldlM_append, hleading]
    simp only [Option.bind_eq_bind, Option.bind_some, List.foldlM_cons, List.foldlM_nil,
      value?_digit (Nat.mod_lt n (by omega : 16 > 0)), Option.map_some, Option.pure_def]
    congr 1
    omega

/-- Digits are decoded to their number if that has no more of them. -/
theorem decode_digits {width n : Nat} (h : n < 16 ^ width) (rest : Text) :
    decode width (digits width n ++ rest) = some (n, rest) := by
  have hlength := length_digits width n
  rw [decode, if_pos (by rw [List.length_append]; omega), List.take_left' hlength,
    List.drop_left' hlength, number?_digits h, Option.map_some]

end Hex

/-! ## Base ten -/

namespace Decimal

/-- Takes all the digits there are. -/
def digits : Decoder Text := fun t =>
  let found := t.takeWhile Char.isDigit
  if found = [] then none else some (found, t.drop found.length)

/-- The number that digits stand for. -/
def value (digits : Text) : Nat := Nat.ofDigitChars 10 digits 0

/-- Takes a natural number. -/
def natural : Decoder Nat := fun t => (digits t).map fun (found, rest) => (value found, rest)

/-- Takes a number that may have a minus sign. -/
def signed {α : Type} [Neg α] (unsigned : Decoder α) : Decoder α
  | '-' :: t => (unsigned t).map fun (a, rest) => (-a, rest)
  | t => unsigned t

/-- Takes an integer. -/
def integer : Decoder Int := signed fun t => (natural t).map fun (n, rest) => ((n : Int), rest)

theorem ofNat_ne_nil (n : Nat) : ofNat n ≠ [] := by
  rw [ofNat]
  split
  · exact List.cons_ne_nil _ _
  · exact List.append_ne_nil_of_right_ne_nil _ (List.cons_ne_nil _ _)

/-- A number starts with a digit, which is a zero only if the number is zero. -/
theorem exists_ofNat_eq (n : Nat) :
    ∃ d rest, ofNat n = d :: rest ∧ d.isDigit = true ∧ (d = '0' → n = 0) := by
  fun_induction ofNat n with
  | case1 n hlt =>
    have hzero : ∀ n < 10, digit n = '0' → n = 0 := by decide
    exact ⟨_, _, rfl, isDigit_digit hlt, hzero n hlt⟩
  | case2 n hge ih =>
    obtain ⟨d, rest, heq, hdigit, hzero⟩ := ih
    refine ⟨d, rest ++ [digit (n % 10)], by rw [heq, List.cons_append], hdigit, fun hd => ?_⟩
    have := hzero hd
    omega

/-- The digits of a number stand for it. -/
theorem value_ofNat (n : Nat) : value (ofNat n) = n := by
  have hvalue : ∀ n < 10, (digit n).toNat - '0'.toNat = n := by decide
  simp only [value, Nat.ofDigitChars_eq_foldl]
  fun_induction ofNat n with
  | case1 n hlt =>
    rw [List.foldl_cons, List.foldl_nil, hvalue n hlt]
    omega
  | case2 n hge ih =>
    rw [List.foldl_append, ih, List.foldl_cons, List.foldl_nil, hvalue _ (by omega)]
    omega

/-- The digits of a number are taken, unless a digit follows them. -/
theorem digits_ofNat (n : Nat) (rest : Text) (h : rest.head?.any Char.isDigit = false) :
    digits (ofNat n ++ rest) = some (ofNat n, rest) := by
  simp only [digits, Recogniser.takeWhile_append_of_stop (isDigit_of_mem_ofNat n) h,
    if_neg (ofNat_ne_nil n), List.drop_left]

/-- A natural number is decoded again, unless a digit follows it. -/
theorem natural_ofNat (n : Nat) (rest : Text) (h : rest.head?.any Char.isDigit = false) :
    natural (ofNat n ++ rest) = some (n, rest) := by
  simp only [natural, digits_ofNat n rest h, Option.map_some, value_ofNat]

/-- An integer starts with a digit or a minus sign. -/
theorem exists_ofInt_eq (z : Int) :
    ∃ c rest, ofInt z = c :: rest ∧ Glyph.isNumberStart c = true := by
  cases z with
  | ofNat n =>
    obtain ⟨d, rest, heq, hdigit, -⟩ := exists_ofNat_eq n
    exact ⟨d, rest, heq, Bool.or_eq_true_iff.mpr (.inl hdigit)⟩
  | negSucc n => exact ⟨'-', _, rfl, rfl⟩

/-- An integer is decoded again if natural numbers are and a minus sign changes the sign. -/
theorem signed_ofInt {α : Type} [Neg α] {unsigned : Decoder α} {f : Int → α} {rest : Text}
    (hnatural : ∀ n : Nat, unsigned (ofNat n ++ rest) = some (f n, rest))
    (hneg : ∀ z : Int, f (-z) = -f z) (z : Int) :
    signed unsigned (ofInt z ++ rest) = some (f z, rest) := by
  cases z with
  | ofNat n =>
    obtain ⟨d, tail, heq, hdigit, -⟩ := exists_ofNat_eq n
    have hd : d ≠ '-' := by
      rintro rfl
      cases hdigit
    have hread := hnatural n
    rw [ofInt]
    rw [heq, List.cons_append] at hread ⊢
    unfold signed
    split
    · rename_i hminus
      exact absurd (List.cons.inj hminus).1 hd
    · exact hread
  | negSucc n =>
    show (unsigned (ofNat (n + 1) ++ rest)).map _ = _
    rw [hnatural]
    exact congrArg (fun a => some (a, rest)) (hneg (n + 1 : Nat)).symm

/-- An integer is decoded again, unless a digit follows it. -/
theorem integer_ofInt (z : Int) (rest : Text) (h : rest.head?.any Char.isDigit = false) :
    integer (ofInt z ++ rest) = some (z, rest) :=
  signed_ofInt (f := id) (fun n => by rw [natural_ofNat n rest h]; rfl) (fun _ => rfl) z

end Decimal

/-! ## Quoted texts -/

namespace Decoder

/-- Takes characters up to a quote, and the quote.  As each of them takes something of the
text, this comes to an end. -/
def upTo (quote : Char) (item : Decoder Char) (t : Text) : Option (Text × Text) :=
  match t with
  | [] => none
  | c :: rest =>
    if c = quote then some ([], rest)
    else
      match item (c :: rest) with
      | none => none
      | some (a, left) =>
        if left.length ≤ rest.length then
          (upTo quote item left).map fun (read, left) => (a :: read, left)
        else none
termination_by t.length

/-- A text is decoded again if each of its characters is, whatever follows, and none is written
with a quote in front. -/
theorem upTo_flatMap {quote : Char} {item : Decoder Char} {written : Char → Text}
    (hitem : ∀ a rest, item (written a ++ rest) = some (a, rest))
    (hquote : ∀ a, (written a).head?.any (· != quote) = true) (t rest : Text) :
    upTo quote item (t.flatMap written ++ quote :: rest) = some (t, rest) := by
  induction t with
  | nil =>
    rw [List.flatMap_nil, List.nil_append, upTo]
    simp only [if_true]
  | cons a t ih =>
    have hstart := hquote a
    have hread := hitem a (t.flatMap written ++ quote :: rest)
    rw [List.flatMap_cons, List.append_assoc]
    cases hwritten : written a with
    | nil =>
      rw [hwritten] at hstart
      cases hstart
    | cons c tail =>
      rw [hwritten] at hstart hread
      have hc : c ≠ quote := by simpa using hstart
      have hshorter := (List.suffix_append tail (t.flatMap written ++ quote :: rest)).length_le
      rw [List.cons_append] at hread ⊢
      rw [upTo]
      simp only [if_neg hc, hread, if_pos hshorter, ih, Option.map_some]

end Decoder
end Lexis
