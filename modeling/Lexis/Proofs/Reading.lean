/-
# What the recognisers read

A recogniser takes a literal exactly (`Recogniser.token_of_spells`) and stops short of the
offending character of one that breaks off (`Recogniser.token_of_breaks`).  As every text
that does not start with white space starts with one or the other, these two say all that
a recogniser does on such a text; in particular the languages are decidable
(`Kind.spells_iff`).
-/

import Lexis.Proofs.Coverage
import Lexis.Recogniser

namespace Lexis
namespace Recogniser

/-! ## Runs -/

theorem takeWhile_eq_nil_of_stop {p : Char → Bool} {rest : Text}
    (hrest : rest.head?.any p = false) : rest.takeWhile p = [] := by
  cases rest with
  | nil => rfl
  | cons c rest => exact List.takeWhile_cons_of_neg (by simpa using hrest)

theorem takeWhile_append_of_stop {p : Char → Bool} {part rest : Text}
    (hpart : ∀ c ∈ part, p c = true) (hrest : rest.head?.any p = false) :
    (part ++ rest).takeWhile p = part := by
  rw [List.takeWhile_append_of_pos hpart, takeWhile_eq_nil_of_stop hrest, List.append_nil]

/-! ## Identifiers and operators -/

theorem token_identifier {c : Char} {part rest : Text}
    (hc : Glyph.isIdentifierStart c = true)
    (hpart : ∀ d ∈ part, Glyph.isIdentifierPart d = true)
    (hrest : rest.head?.any Glyph.isIdentifierPart = false) :
    token (c :: (part ++ rest)) = ⟨part.length + 1, .ok .identifier⟩ := by
  have htake := takeWhile_append_of_stop hpart hrest
  simp only [token, startingWith, identifier, optionally, run, CharClass.accepts_identifierStart,
    CharClass.accepts_identifierPart, hc, if_true, htake, Reading.after, Nat.add_comm]

theorem token_of_isOperator {c : Char} (h : Glyph.isOperator c = true) (rest : Text) :
    token (c :: rest) = operator (c :: rest) := by
  obtain ⟨-, hidentifier, hnumber, hsingle, hdouble⟩ := Glyph.isOperator_iff.mp h
  simp only [token, startingWith, CharClass.accepts_identifierStart, CharClass.accepts_numberStart,
    CharClass.singleQuote, CharClass.doubleQuote, CharClass.accepts_exactly, hidentifier, hnumber,
    beq_false_of_ne hsingle, beq_false_of_ne hdouble, Bool.false_eq_true, if_false]

theorem token_pair {c d : Char} (h : (c, d) ∈ Kind.pairs) (rest : Text) :
    token (c :: d :: rest) = ⟨2, .ok .operator⟩ := by
  have hpair : pairs.contains (c, d) = true := List.contains_iff_mem.mpr h
  rw [token_of_isOperator (Kind.isOperator_of_pair h), operator, if_pos hpair]

theorem token_single {c : Char} {rest : Text} (h : Glyph.isOperator c = true)
    (hrest : Kind.operator.Stops [c] rest) : token (c :: rest) = ⟨1, .ok .operator⟩ := by
  rw [token_of_isOperator h]
  cases rest with
  | nil => rfl
  | cons d rest =>
    have hpair : pairs.contains (c, d) = false := (Kind.carriesOn_operator c d).symm.trans hrest
    rw [operator, hpair, if_neg Bool.false_ne_true]

/-! ## Numbers -/

theorem token_of_numberStart {c : Char} (h : Glyph.isNumberStart c = true)
    (rest : Text) : token (c :: rest) = number (c :: rest) := by
  have hidentifier : Glyph.isIdentifierStart c = false :=
    CharClass.eq_of_accepts CharClass.accepts_numberStart h rfl
  simp only [token, startingWith, CharClass.accepts_identifierStart, CharClass.accepts_numberStart,
    hidentifier, h, Bool.false_eq_true, if_false, if_true]

theorem number_minus (text : Text) : number ('-' :: text) = (unsigned text).after 1 := rfl

theorem number_of_digit {d : Char} (h : d.isDigit = true) (rest : Text) :
    number (d :: rest) = unsigned (d :: rest) := by
  have hminus : CharClass.minus.accepts d = false :=
    CharClass.eq_of_accepts CharClass.accepts_digit h rfl
  simp only [number, optionally, hminus, Bool.false_eq_true, if_false]

theorem startsWithNeedlessZero_iff {text : Text} :
    startsWithNeedlessZero text = true ↔
      ∃ d rest, text = '0' :: d :: rest ∧ d.isDigit = true := by
  constructor
  · intro h
    rcases text with _ | ⟨c, _ | ⟨d, rest⟩⟩
    · cases h
    · cases h
    · obtain ⟨hzero, hdigit⟩ := Bool.and_eq_true_iff.mp h
      obtain rfl : '0' = c := by simpa [CharClass.zero, CharClass.accepts] using hzero
      rw [CharClass.accepts_digit] at hdigit
      exact ⟨d, rest, rfl, hdigit⟩
  · rintro ⟨d, rest, rfl, hdigit⟩
    have hzero : CharClass.zero.accepts '0' = true := rfl
    rw [startsWithNeedlessZero, CharClass.accepts_digit, hzero, hdigit, Bool.and_self]

/-- What follows a whole number and is no digit does not make its zero needless. -/
theorem startsWithNeedlessZero_append {whole rest : Text} (h : whole = [] ∨ IsWhole whole)
    (hrest : rest.head?.any Char.isDigit = false) :
    startsWithNeedlessZero (whole ++ rest) = false := by
  rw [Bool.eq_false_iff]
  intro hneedless
  obtain ⟨d, tail, heq, hd⟩ := startsWithNeedlessZero_iff.mp hneedless
  rcases h with rfl | _ | ⟨-, hne, -⟩
  · rw [List.nil_append] at heq
    subst heq
    exact absurd (show Char.isDigit '0' = false from hrest) (by decide)
  · obtain rfl := (List.cons.inj heq).2
    exact absurd (hd.symm.trans hrest) (by decide)
  · exact hne (List.cons.inj heq).1

/-- After its whole part a number goes on from there. -/
theorem unsigned_append {whole rest : Text} (h : whole = [] ∨ IsWhole whole)
    (hrest : rest.head?.any Char.isDigit = false) :
    unsigned (whole ++ rest) = numberFrom whole.length rest := by
  have hdigits : ∀ c ∈ whole, c.isDigit = true := by
    rcases h with rfl | h
    · exact fun c hc => absurd hc List.not_mem_nil
    · exact IsWhole.accepts_digit h
  rw [unsigned, startsWithNeedlessZero_append h hrest, if_neg Bool.false_ne_true]
  simp only [CharClass.accepts_digit, takeWhile_append_of_stop hdigits hrest, List.drop_left]

theorem numberFrom_after (n m : Nat) (rest : Text) :
    (numberFrom n rest).after m = numberFrom (n + m) rest := by
  unfold numberFrom
  split
  · simp only [Reading.after, Reading.mk.injEq, and_true]
    omega
  · simp only [Reading.after, Nat.add_comm]

theorem number_append {whole rest : Text} (h : IsInteger whole)
    (hrest : rest.head?.any Char.isDigit = false) :
    number (whole ++ rest) = numberFrom whole.length rest := by
  cases h with
  | unsigned h =>
    obtain ⟨d, ds, rfl, hd⟩ := h.exists_cons
    exact (number_of_digit hd _).trans (unsigned_append (.inr h) hrest)
  | @signed ds h =>
    rw [List.cons_append, number_minus, unsigned_append (.inr h) hrest, numberFrom_after,
      List.length_cons]
  | sign =>
    have hnone := unsigned_append (.inl rfl) hrest
    rw [List.cons_append, number_minus, hnone, numberFrom_after]
    rfl

/-- After an integer, the recogniser goes on from inside a number. -/
theorem token_append_integer {whole rest : Text} (h : IsInteger whole)
    (hrest : rest.head?.any Char.isDigit = false) :
    token (whole ++ rest) = numberFrom whole.length rest := by
  rw [← number_append h hrest]
  obtain ⟨c, tail, rfl, hc⟩ := h.exists_cons
  exact token_of_numberStart hc _

theorem token_integer {whole rest : Text} (h : IsInteger whole)
    (hrest : Kind.integer.Stops whole rest) :
    token (whole ++ rest) = ⟨whole.length, .ok .integer⟩ := by
  cases rest with
  | nil =>
    rw [token_append_integer h rfl]
    rfl
  | cons c rest =>
    obtain ⟨hdigit, hpoint⟩ := Bool.or_eq_false_iff.mp hrest
    have hne : c ≠ '.' := by rintro rfl; exact absurd hpoint (by decide)
    have hstop : (c :: rest).head?.any Char.isDigit = false := hdigit
    rw [token_append_integer h hstop, numberFrom]
    exact fun tail htail => hne (List.cons.inj htail).1

theorem token_decimal {whole part rest : Text} (h : IsInteger whole) (hne : part ≠ [])
    (hpart : ∀ d ∈ part, d.isDigit = true)
    (hrest : rest.head?.any Char.isDigit = false) :
    token (whole ++ '.' :: (part ++ rest)) = ⟨whole.length + (part.length + 1), .ok .decimal⟩ := by
  obtain ⟨d, ds, rfl⟩ := List.exists_cons_of_ne_nil hne
  rw [token_append_integer h rfl, numberFrom, fraction, CharClass.accepts_digit,
    takeWhile_append_of_stop hpart hrest]
  simp only [List.length_cons, Reading.after, Reading.mk.injEq, and_true]
  omega

theorem token_trailingPoint {whole rest : Text} (h : IsInteger whole)
    (hrest : rest.head?.any Char.isDigit = false) :
    token (whole ++ '.' :: rest) = ⟨whole.length + 1, .error .trailingPoint⟩ := by
  rw [token_append_integer h rfl, numberFrom, fraction, CharClass.accepts_digit,
    takeWhile_eq_nil_of_stop hrest]
  rfl

theorem token_leadingZero {sign : Text} {d : Char} (hsign : sign = [] ∨ sign = ['-'])
    (hd : d.isDigit = true) (rest : Text) :
    token (sign ++ '0' :: d :: rest) = ⟨sign.length, .error .leadingZero⟩ := by
  have hneedless : startsWithNeedlessZero ('0' :: d :: rest) = true :=
    startsWithNeedlessZero_iff.mpr ⟨d, rest, rfl, hd⟩
  rcases hsign with rfl | rfl
  · rw [List.nil_append, token_of_numberStart (by decide), number_of_digit (by decide), unsigned,
      if_pos hneedless]
    rfl
  · rw [List.cons_append, token_of_numberStart (by decide), List.nil_append, number_minus, unsigned,
      if_pos hneedless]
    rfl

/-! ## Escapes and character literals -/

theorem escape_target {target : Char} (h : Glyph.isEscapeTarget target = true)
    (rest : Text) : escape ('\\' :: target :: rest) = ⟨2, .ok ()⟩ := by
  rw [escape, CharClass.accepts_escapeTarget, if_pos h]

theorem escape_badTarget {rest : Text}
    (hrest : rest.head?.any Glyph.isEscapeTarget = false) :
    escape ('\\' :: rest) = ⟨1, .error .escapeTarget⟩ := by
  cases rest with
  | nil => rfl
  | cons c rest =>
    have hc : Glyph.isEscapeTarget c = false := hrest
    rw [escape, CharClass.accepts_escapeTarget, hc, if_neg Bool.false_ne_true]

theorem token_singleQuote (rest : Text) :
    token ('\'' :: rest) = (afterSingleQuote rest).after 1 := by
  have hidentifier : CharClass.identifierStart.accepts '\'' = false := rfl
  have hnumber : CharClass.numberStart.accepts '\'' = false := rfl
  simp only [token, startingWith, hidentifier, hnumber, Bool.false_eq_true, if_false]
  rfl

theorem closingQuote_of_ne {rest : Text} (h : rest.head? ≠ some '\'') :
    closingQuote rest = ⟨0, .error .characterUnclosed⟩ := by
  rw [closingQuote]
  rintro tail rfl
  exact h rfl

/-- After its body a character literal goes on with the closing quote. -/
theorem afterSingleQuote_append {body : Text} (h : IsCharacterBody body) (rest : Text) :
    afterSingleQuote (body ++ rest) = (closingQuote rest).after body.length := by
  cases h with
  | @plain c h =>
    obtain ⟨hne, hmem⟩ := List.ne_and_not_mem_of_not_mem_cons h
    have hbackslash : CharClass.backslash.accepts c = false :=
      (CharClass.accepts_exactly '\\' c).trans (beq_false_of_ne hne)
    have hbody : CharClass.characterBody.accepts c = true := CharClass.accepts_noneOf.mpr hmem
    simp only [List.cons_append, List.nil_append, afterSingleQuote, hbackslash, hbody,
      Bool.false_eq_true, if_false, if_true, List.length_singleton]
  | escape h =>
    have hbackslash : CharClass.backslash.accepts '\\' = true := rfl
    simp only [List.cons_append, List.nil_append, afterSingleQuote, hbackslash, if_true,
      followedBy, escape_target h]
    rfl

theorem afterSingleQuote_badBody {rest : Text}
    (hrest : rest.head?.all ['\'', '\n', '\r'].contains = true) :
    afterSingleQuote rest = ⟨0, .error .characterBody⟩ := by
  cases rest with
  | nil => rfl
  | cons c rest =>
    have hc : c ∈ ['\'', '\n', '\r'] := List.contains_iff_mem.mp hrest
    have hbackslash : CharClass.backslash.accepts c = false :=
      CharClass.eq_of_accepts rfl hrest rfl
    have hbody : CharClass.characterBody.accepts c = false := by
      rw [Bool.eq_false_iff]
      exact fun hbody => CharClass.accepts_noneOf.mp hbody hc
    simp only [afterSingleQuote, hbackslash, hbody, Bool.false_eq_true, if_false]

theorem afterSingleQuote_badEscape {rest : Text}
    (hrest : rest.head?.any Glyph.isEscapeTarget = false) :
    afterSingleQuote ('\\' :: rest) = ⟨1, .error .escapeTarget⟩ := by
  have hbackslash : CharClass.backslash.accepts '\\' = true := rfl
  simp only [afterSingleQuote, hbackslash, if_true, followedBy, escape_badTarget hrest]

/-! ## String literals -/

theorem token_doubleQuote (rest : Text) : token ('"' :: rest) = (stringFrom 0 rest).after 1 := by
  have hidentifier : CharClass.identifierStart.accepts '"' = false := rfl
  have hnumber : CharClass.numberStart.accepts '"' = false := rfl
  have hsingle : CharClass.singleQuote.accepts '"' = false := rfl
  simp only [token, startingWith, hidentifier, hnumber, hsingle, Bool.false_eq_true, if_false]
  rfl

theorem stringFrom_plain {c : Char} (h : c ∉ ['\\', '"', '\n', '\r']) (n : Nat) (rest : Text) :
    stringFrom n (c :: rest) = stringFrom (n + 1) rest := by
  have hbody : CharClass.stringBody.accepts c = true := CharClass.accepts_noneOf.mpr h
  obtain ⟨hbackslash, hmem⟩ := List.ne_and_not_mem_of_not_mem_cons h
  obtain ⟨hquote, -⟩ := List.ne_and_not_mem_of_not_mem_cons hmem
  rw [stringFrom, if_pos hbody]
  · exact hquote
  · exact fun hc _ => hbackslash hc
  · exact fun _ _ hc _ => hbackslash hc

theorem stringFrom_escape {target : Char} (h : Glyph.isEscapeTarget target = true)
    (n : Nat) (rest : Text) : stringFrom n ('\\' :: target :: rest) = stringFrom (n + 2) rest := by
  rw [stringFrom, CharClass.accepts_escapeTarget, if_pos h]

/-- After its body a string literal goes on with what ends it. -/
theorem stringFrom_append {body : Text} (h : IsStringBody body) (n : Nat) (rest : Text) :
    stringFrom n (body ++ rest) = stringFrom (n + body.length) rest := by
  induction h generalizing n with
  | nil => rfl
  | plain h _ ih =>
    rw [List.cons_append, stringFrom_plain h, ih, List.length_cons, Nat.add_assoc, Nat.add_comm 1]
  | escape h _ ih =>
    rw [List.cons_append, List.cons_append, stringFrom_escape h, ih, List.length_cons,
      List.length_cons, Nat.add_assoc, Nat.add_comm 2]

theorem stringFrom_badEscape {rest : Text}
    (hrest : rest.head?.any Glyph.isEscapeTarget = false) (n : Nat) :
    stringFrom n ('\\' :: rest) = ⟨n + 1, .error .escapeTarget⟩ := by
  cases rest with
  | nil => rfl
  | cons c rest =>
    have hc : Glyph.isEscapeTarget c = false := hrest
    rw [stringFrom, CharClass.accepts_escapeTarget, hc, if_neg Bool.false_ne_true]

theorem stringFrom_lineBreak {c : Char} (hc : c = '\n' ∨ c = '\r') (n : Nat) (rest : Text) :
    stringFrom n (c :: rest) = ⟨n, .error .stringBody⟩ := by
  rcases hc with rfl | rfl <;> rfl

/-- What was taken before only adds to what is taken. -/
theorem stringFrom_after (n : Nat) (text : Text) :
    stringFrom n text = (stringFrom 0 text).after n := by
  obtain ⟨body, rest, rfl, hbody, hends⟩ := exists_stringBody text
  rw [stringFrom_append hbody, stringFrom_append hbody, Nat.zero_add]
  cases hends with
  | input | quote => rfl
  | lineBreak hc =>
    rw [stringFrom_lineBreak hc, stringFrom_lineBreak hc]
    rfl
  | escape hrest =>
    rw [stringFrom_badEscape hrest, stringFrom_badEscape hrest]
    rfl

/-! ## Any token -/

/-- **A literal is read whole.**  Before a text that does not carry it on, the recogniser
takes a literal of a kind, no more and no less, and tells the kind. -/
theorem token_of_spells {kind : Kind} {literal rest : Text} (h : kind.Spells literal)
    (hrest : kind.Stops literal rest) :
    token (literal ++ rest) = ⟨literal.length, .ok kind⟩ := by
  cases h with
  | identifier h hpart => exact token_identifier h hpart hrest
  | integer h => exact token_integer h hrest
  | decimal h hne hpart =>
    rw [List.append_assoc, List.cons_append, token_decimal h hne hpart hrest, List.length_append,
      List.length_cons]
  | @character body h =>
    rw [List.cons_append, List.append_assoc, token_singleQuote, afterSingleQuote_append h]
    simp only [List.cons_append, closingQuote, Reading.after, List.length_cons, List.length_append,
      List.length_nil, Reading.mk.injEq, and_true]
    omega
  | @string body h =>
    rw [List.cons_append, List.append_assoc, token_doubleQuote, stringFrom_append h]
    simp only [List.cons_append, stringFrom, Reading.after, List.length_cons, List.length_append,
      List.length_nil, Reading.mk.injEq, and_true]
    omega
  | pair h => exact token_pair h rest
  | single h => exact token_single h hrest

/-- **A literal that breaks off is read up to the offending character**, except that the
zero before the digit to blame is not taken. -/
theorem token_of_breaks {fault : Fault} {i : Nat} {text : Text} (h : Breaks fault i text) :
    token text = ⟨i - fault.offset, .error fault⟩ := by
  cases h with
  | leadingZero hsign hd => exact token_leadingZero hsign hd _
  | trailingPoint h hrest => exact token_trailingPoint h hrest
  | characterBody hrest => rw [token_singleQuote, afterSingleQuote_badBody hrest]; rfl
  | characterEscape hrest => rw [token_singleQuote, afterSingleQuote_badEscape hrest]; rfl
  | characterUnclosed h hrest =>
    rw [token_singleQuote, afterSingleQuote_append h, closingQuote_of_ne hrest]
    simp only [Reading.after, Fault.offset, Nat.add_zero, Nat.sub_zero, Nat.add_comm]
  | stringEscape h hrest =>
    rw [token_doubleQuote, stringFrom_append h, stringFrom_badEscape hrest]
    simp only [Reading.after, Fault.offset, Reading.mk.injEq, and_true]
    omega
  | stringBody h hc =>
    rw [token_doubleQuote, stringFrom_append h, stringFrom_lineBreak hc]
    simp only [Reading.after, Fault.offset, Reading.mk.injEq, and_true]
    omega
  | @stringUnclosed body h =>
    have hend := stringFrom_append h 0 []
    rw [List.append_nil] at hend
    rw [token_doubleQuote, hend]
    simp only [stringFrom, Reading.after, Fault.offset, Reading.mk.injEq, and_true]
    omega

end Recogniser

namespace Kind

/-- **The longest match.**  Where a literal stops, no longer literal starts, of this kind or
of another. -/
theorem Spells.length_le {kind kind' : Kind} {literal literal' rest : Text}
    (h : kind.Spells literal) (hstop : kind.Stops literal rest) (h' : kind'.Spells literal')
    (hbegins : literal' <+: literal ++ rest) : literal'.length ≤ literal.length := by
  rcases Nat.le_total literal'.length literal.length with hle | hle
  · exact hle
  obtain ⟨more, rfl⟩ :=
    List.prefix_of_prefix_length_le (List.prefix_append literal rest) hbegins hle
  -- both literals are read off the longer one, so they are of one length
  have hmore : kind.Stops literal more := by
    obtain ⟨tail, rfl⟩ := List.prefix_append_right_inj literal |>.mp hbegins
    rcases more with _ | ⟨c, more⟩
    · rfl
    · exact hstop
  have hread : Recogniser.token (literal ++ more ++ []) = ⟨(literal ++ more).length, .ok kind'⟩ :=
    Recogniser.token_of_spells h' rfl
  rw [List.append_nil, Recogniser.token_of_spells h hmore] at hread
  exact Nat.le_of_eq (congrArg Reading.taken hread).symm

/-- A text is a literal of a kind exactly when it does not start with white space and the
recogniser takes all of it for that kind. -/
theorem spells_iff {kind : Kind} {literal : Text} :
    kind.Spells literal ↔ literal.head?.any Glyph.isWhite = false ∧
      (Recogniser.token literal).taken = literal.length ∧
        (Recogniser.token literal).verdict.toOption = some kind := by
  constructor
  · intro h
    have hread : Recogniser.token (literal ++ []) = ⟨literal.length, .ok kind⟩ :=
      Recogniser.token_of_spells h rfl
    obtain ⟨c, tail, rfl, hc⟩ := h.exists_cons
    rw [List.append_nil] at hread
    rw [hread]
    exact ⟨hc, rfl, rfl⟩
  · rintro ⟨hwhite, htaken, hverdict⟩
    rcases literal with _ | ⟨c, tail⟩
    · cases hverdict
    rcases beginsWhole_or_beginsBroken hwhite tail with
      ⟨kind', part, rest, heq, h, hstop⟩ | ⟨fault, i, h⟩
    · rw [heq, Recogniser.token_of_spells h hstop] at htaken hverdict
      obtain rfl : rest = [] := by simpa using htaken
      obtain rfl : kind' = kind := Option.some.inj hverdict
      rw [heq, List.append_nil]
      exact h
    · rw [Recogniser.token_of_breaks h] at hverdict
      cases hverdict

instance (kind : Kind) (literal : Text) : Decidable (kind.Spells literal) :=
  decidable_of_iff _ spells_iff.symm

example : decimal.Spells "-.5".toList ∧ ¬ integer.Spells "-05".toList := by decide

end Kind
end Lexis
