/-
# Literals

What a token looks like, said without the recognisers:

| kind | literals |
| --- | --- |
| identifier | a letter or `@`, then letters, digits, `_` and `-` |
| integer | maybe `-`, then `0` or digits of which the first is not `0`; also `-` alone |
| decimal | an integer, `.`, one or more digits |
| character | `'`, one escape or plain character, `'` |
| string | `"`, escapes and plain characters, `"` |
| operator | one of `Kind.pairs`, or one character that no other token starts with |

`Kind.Spells` is membership in these languages.  A literal is read as far as it goes, so
it `Stops` only where the next character does not carry it on (`Kind.carriesOn`).  A
literal that has begun and cannot be finished `Breaks`, at the index of the first
character that no literal has there or at the end of the input.
-/

import Lexis.Fault
import Lexis.Proofs.Glyph

namespace Lexis

/-! ## Whole literals -/

/-- Digits, the first of which is `0` only if it is the last. -/
inductive IsWhole : Text → Prop where
  | zero : IsWhole ['0']
  | digits {d : Char} {rest : Text} (hd : d.isDigit = true) (hne : d ≠ '0')
      (hrest : ∀ c ∈ rest, c.isDigit = true) : IsWhole (d :: rest)

/-- An integer: a whole number with or without a sign, or a sign alone. -/
inductive IsInteger : Text → Prop where
  | unsigned {whole : Text} (h : IsWhole whole) : IsInteger whole
  | signed {whole : Text} (h : IsWhole whole) : IsInteger ('-' :: whole)
  | sign : IsInteger ['-']

/-- What stands between the quotes of a character literal. -/
inductive IsCharacterBody : Text → Prop where
  | plain {c : Char} (h : c ∉ ['\\', '\'', '\n', '\r']) : IsCharacterBody [c]
  | escape {target : Char} (h : Glyph.isEscapeTarget target = true) :
      IsCharacterBody ['\\', target]

/-- What stands between the quotes of a string literal. -/
inductive IsStringBody : Text → Prop where
  | nil : IsStringBody []
  | plain {c : Char} {rest : Text} (h : c ∉ ['\\', '"', '\n', '\r'])
      (hrest : IsStringBody rest) : IsStringBody (c :: rest)
  | escape {target : Char} {rest : Text} (h : Glyph.isEscapeTarget target = true)
      (hrest : IsStringBody rest) : IsStringBody ('\\' :: target :: rest)

namespace Kind

/-- The operators of two characters. -/
def pairs : List (Char × Char) := [('!', '='), ('=', '='), ('&', '&'), ('|', '|')]

/-- The literals of a kind. -/
inductive Spells : Kind → Text → Prop where
  | identifier {c : Char} {rest : Text} (h : Glyph.isIdentifierStart c = true)
      (hrest : ∀ d ∈ rest, Glyph.isIdentifierPart d = true) :
      Spells identifier (c :: rest)
  | integer {literal : Text} (h : IsInteger literal) : Spells integer literal
  | decimal {whole fraction : Text} (h : IsInteger whole) (hne : fraction ≠ [])
      (hfraction : ∀ d ∈ fraction, d.isDigit = true) :
      Spells decimal (whole ++ '.' :: fraction)
  | character {body : Text} (h : IsCharacterBody body) :
      Spells character ('\'' :: (body ++ ['\'']))
  | string {body : Text} (h : IsStringBody body) : Spells string ('"' :: (body ++ ['"']))
  | pair {c d : Char} (h : (c, d) ∈ pairs) : Spells operator [c, d]
  | single {c : Char} (h : Glyph.isOperator c = true) : Spells operator [c]

/-- Whether a character right after a literal would carry it on. -/
def carriesOn : Kind → Text → Char → Bool
  | identifier, _, c => Glyph.isIdentifierPart c
  | integer, _, c => c.isDigit || c == '.'
  | decimal, _, c => c.isDigit
  | character, _, _ | string, _, _ => false
  | operator, literal, c => pairs.any fun pair => literal ++ [c] == [pair.1, pair.2]

/-- The first character of a pair may stand alone as well. -/
theorem isOperator_of_pair {c d : Char} (h : (c, d) ∈ pairs) : Glyph.isOperator c = true := by
  have hpairs : pairs.all (fun pair => Glyph.isOperator pair.1) = true := rfl
  exact List.all_eq_true.mp hpairs (c, d) h

/-- The second character of a pair is no white space. -/
theorem not_isWhite_of_pair {c d : Char} (h : (c, d) ∈ pairs) : Glyph.isWhite d = false := by
  have hpairs : pairs.all (fun pair => Glyph.isWhite pair.2 == false) = true := rfl
  exact eq_of_beq (List.all_eq_true.mp hpairs (c, d) h)

/-- Only the first character of a pair is carried on, by its second. -/
theorem carriesOn_operator (c d : Char) :
    operator.carriesOn [c] d = pairs.contains (c, d) := by
  rw [Bool.eq_iff_iff, List.contains_iff_mem]
  simp only [carriesOn, List.any_eq_true, beq_iff_eq, List.singleton_append, List.cons.injEq,
    and_true]
  constructor
  · rintro ⟨pair, hpair, rfl, rfl⟩
    exact hpair
  · exact fun h => ⟨(c, d), h, rfl, rfl⟩

/-- White space carries nothing on. -/
theorem carriesOn_white {c : Char} (hc : Glyph.isWhite c = true) (kind : Kind)
    (literal : Text) : kind.carriesOn literal c = false := by
  have hpart : Glyph.isIdentifierPart c = false :=
    CharClass.eq_of_accepts CharClass.accepts_whitespace hc rfl
  have hdigit : c.isDigit = false := CharClass.eq_of_accepts CharClass.accepts_whitespace hc rfl
  have hpoint : (c == '.') = false :=
    CharClass.eq_of_accepts (q := (· == '.')) CharClass.accepts_whitespace hc rfl
  cases kind with
  | identifier => exact hpart
  | integer => exact Bool.or_eq_false_iff.mpr ⟨hdigit, hpoint⟩
  | decimal => exact hdigit
  | character | string => rfl
  | operator =>
    simp only [carriesOn, List.any_eq_false, beq_iff_eq]
    rintro ⟨a, b⟩ hpair heq
    obtain rfl : c = b := by simpa using congrArg List.getLast? heq
    exact absurd (hc.symm.trans (not_isWhite_of_pair hpair)) Bool.true_eq_false.mp

/-- Nothing that follows a literal carries it on. -/
def Stops (kind : Kind) (literal rest : Text) : Prop :=
  rest.head?.any (kind.carriesOn literal) = false

/-- A kind whose literal nothing carries on stops anywhere. -/
theorem stops_of_forall {kind : Kind} {literal : Text}
    (h : ∀ c, kind.carriesOn literal c = false) (rest : Text) : kind.Stops literal rest := by
  cases rest with
  | nil => rfl
  | cons c rest => exact h c

theorem stops_character (literal rest : Text) : character.Stops literal rest :=
  stops_of_forall (fun _ => rfl) rest

theorem stops_string (literal rest : Text) : string.Stops literal rest :=
  stops_of_forall (fun _ => rfl) rest

/-- A literal of any kind stops at white space. -/
theorem stops_white_append {gap : Text} (hne : gap ≠ [])
    (hgap : gap.all Glyph.isWhite = true) (kind : Kind) (literal rest : Text) :
    kind.Stops literal (gap ++ rest) := by
  obtain ⟨c, gap, rfl⟩ := List.exists_cons_of_ne_nil hne
  exact carriesOn_white (List.all_eq_true.mp hgap c (List.mem_cons_self ..)) kind literal

theorem stops_pair (c d : Char) (rest : Text) : operator.Stops [c, d] rest :=
  stops_of_forall (fun e => by simp [carriesOn]) rest

end Kind

/-! ## Literals that break off -/

/-- The text starts with a literal that breaks off, for a fault, before its character of a
given index.  That character, or the end of the input, is to blame. -/
inductive Breaks : Fault → Nat → Text → Prop where
  | leadingZero {sign : Text} {d : Char} {rest : Text} (hsign : sign = [] ∨ sign = ['-'])
      (hd : d.isDigit = true) :
      Breaks .leadingZero (sign.length + 1) (sign ++ '0' :: d :: rest)
  | trailingPoint {whole rest : Text} (h : IsInteger whole)
      (hrest : rest.head?.any Char.isDigit = false) :
      Breaks .trailingPoint (whole.length + 1) (whole ++ '.' :: rest)
  | characterBody {rest : Text} (hrest : rest.head?.all ['\'', '\n', '\r'].contains = true) :
      Breaks .characterBody 1 ('\'' :: rest)
  | characterEscape {rest : Text} (hrest : rest.head?.any Glyph.isEscapeTarget = false) :
      Breaks .escapeTarget 2 ('\'' :: '\\' :: rest)
  | characterUnclosed {body rest : Text} (h : IsCharacterBody body)
      (hrest : rest.head? ≠ some '\'') :
      Breaks .characterUnclosed (body.length + 1) ('\'' :: (body ++ rest))
  | stringEscape {body rest : Text} (h : IsStringBody body)
      (hrest : rest.head?.any Glyph.isEscapeTarget = false) :
      Breaks .escapeTarget (body.length + 2) ('"' :: (body ++ '\\' :: rest))
  | stringBody {body : Text} {c : Char} {rest : Text} (h : IsStringBody body)
      (hc : c = '\n' ∨ c = '\r') : Breaks .stringBody (body.length + 1) ('"' :: (body ++ c :: rest))
  | stringUnclosed {body : Text} (h : IsStringBody body) :
      Breaks .stringUnclosed (body.length + 1) ('"' :: body)

/-! ## First characters -/

/-- A whole number starts with a digit. -/
theorem IsWhole.exists_cons {whole : Text} (h : IsWhole whole) :
    ∃ d rest, whole = d :: rest ∧ d.isDigit = true := by
  cases h with
  | zero => exact ⟨'0', [], rfl, rfl⟩
  | digits hd _ _ => exact ⟨_, _, rfl, hd⟩

theorem IsWhole.accepts_digit {whole : Text} (h : IsWhole whole) :
    ∀ c ∈ whole, c.isDigit = true := by
  cases h with
  | zero => exact List.forall_mem_singleton.mpr rfl
  | digits hd _ hrest => exact List.forall_mem_cons.mpr ⟨hd, hrest⟩

/-- An integer consists of digits and signs. -/
theorem IsInteger.isNumberStart {whole : Text} (h : IsInteger whole) :
    ∀ c ∈ whole, Glyph.isNumberStart c = true := by
  have hdigits : ∀ {ds : Text}, IsWhole ds → ∀ c ∈ ds, Glyph.isNumberStart c = true :=
    fun hds c hc => Bool.or_eq_true_iff.mpr (.inl (hds.accepts_digit c hc))
  cases h with
  | unsigned h => exact hdigits h
  | signed h => exact List.forall_mem_cons.mpr ⟨rfl, hdigits h⟩
  | sign => exact List.forall_mem_singleton.mpr rfl

/-- An integer starts as numbers do. -/
theorem IsInteger.exists_cons {whole : Text} (h : IsInteger whole) :
    ∃ c rest, whole = c :: rest ∧ Glyph.isNumberStart c = true := by
  cases h with
  | unsigned h =>
    obtain ⟨d, rest, rfl, hd⟩ := h.exists_cons
    exact ⟨d, rest, rfl, Bool.or_eq_true_iff.mpr (.inl hd)⟩
  | signed _ => exact ⟨_, _, rfl, rfl⟩
  | sign => exact ⟨_, _, rfl, rfl⟩

namespace Kind

/-- A literal is not empty, and its first character is no white space. -/
theorem Spells.exists_cons {kind : Kind} {literal : Text} (h : kind.Spells literal) :
    ∃ c rest, literal = c :: rest ∧ Glyph.isWhite c = false := by
  cases h with
  | @identifier c rest h _ =>
    have hc : Glyph.isWhite c = false :=
      CharClass.eq_of_accepts CharClass.accepts_identifierStart h rfl
    exact ⟨c, rest, rfl, hc⟩
  | integer h =>
    obtain ⟨c, rest, rfl, hc⟩ := h.exists_cons
    exact ⟨c, rest, rfl, CharClass.eq_of_accepts CharClass.accepts_numberStart hc rfl⟩
  | decimal h _ _ =>
    obtain ⟨c, rest, rfl, hc⟩ := h.exists_cons
    exact ⟨c, _, rfl, CharClass.eq_of_accepts CharClass.accepts_numberStart hc rfl⟩
  | character _ => exact ⟨_, _, rfl, rfl⟩
  | string _ => exact ⟨_, _, rfl, rfl⟩
  | pair h => exact ⟨_, _, rfl, (Glyph.isOperator_iff.mp (isOperator_of_pair h)).1⟩
  | single h => exact ⟨_, _, rfl, (Glyph.isOperator_iff.mp h).1⟩

theorem Spells.ne_nil {kind : Kind} {literal : Text} (h : kind.Spells literal) : literal ≠ [] := by
  obtain ⟨c, rest, rfl, -⟩ := h.exists_cons
  exact List.cons_ne_nil c rest

theorem Spells.length_pos {kind : Kind} {literal : Text} (h : kind.Spells literal) :
    0 < literal.length :=
  List.length_pos_iff.mpr h.ne_nil

/-- The last character of a literal is no white space. -/
theorem Spells.getLast?_isWhite {kind : Kind} {literal : Text} (h : kind.Spells literal) :
    literal.getLast?.any Glyph.isWhite = false := by
  have hmembers : ∀ {part : Text}, (∀ c ∈ part, Glyph.isWhite c = false) →
      part.getLast?.any Glyph.isWhite = false := fun hpart =>
    (Option.any_eq_false ..).mpr fun c hc =>
      hpart c (List.mem_of_getLast? hc)
  cases h with
  | identifier h hrest =>
    refine hmembers (List.forall_mem_cons.mpr ⟨?_, fun d hd => ?_⟩)
    · exact CharClass.eq_of_accepts CharClass.accepts_identifierStart h rfl
    · exact CharClass.eq_of_accepts CharClass.accepts_identifierPart (hrest d hd) rfl
  | integer h =>
    exact hmembers fun c hc =>
      CharClass.eq_of_accepts CharClass.accepts_numberStart (h.isNumberStart c hc) rfl
  | @decimal whole fraction _ hne hfraction =>
    have hlast : (whole ++ '.' :: fraction).getLast? = fraction.getLast? := by
      rw [List.append_cons, List.getLast?_append, List.getLast?_eq_some_getLast hne, Option.some_or]
    rw [hlast]
    exact hmembers fun c hc =>
      CharClass.eq_of_accepts CharClass.accepts_digit (hfraction c hc) rfl
  | character _ | string _ =>
    rw [← List.cons_append, List.getLast?_concat]
    rfl
  | pair h => exact not_isWhite_of_pair h
  | single h => exact (Glyph.isOperator_iff.mp h).1

end Kind

/-! ## Line breaks -/

theorem IsInteger.isLineBreak {whole : Text} (h : IsInteger whole) :
    ∀ c ∈ whole, Glyph.isLineBreak c = false := fun c hc =>
  CharClass.eq_of_accepts CharClass.accepts_numberStart (h.isNumberStart c hc) rfl

theorem Glyph.isLineBreak_of_target {c : Char} (h : isEscapeTarget c = true) :
    isLineBreak c = false :=
  CharClass.eq_of_accepts CharClass.accepts_escapeTarget h rfl

theorem Glyph.isLineBreak_of_notMem {c a b : Char} (h : c ∉ [a, b, '\n', '\r']) :
    isLineBreak c = false := by
  simp only [List.mem_cons, not_or] at h
  obtain ⟨-, -, hfeed, hreturn, -⟩ := h
  exact Bool.or_eq_false_iff.mpr ⟨beq_eq_false_iff_ne.mpr hfeed, beq_eq_false_iff_ne.mpr hreturn⟩

theorem IsCharacterBody.isLineBreak {body : Text} (h : IsCharacterBody body) :
    ∀ c ∈ body, Glyph.isLineBreak c = false := by
  cases h with
  | plain h => exact List.forall_mem_singleton.mpr (Glyph.isLineBreak_of_notMem h)
  | escape h =>
    exact List.forall_mem_cons.mpr
      ⟨rfl, List.forall_mem_singleton.mpr (Glyph.isLineBreak_of_target h)⟩

theorem IsStringBody.isLineBreak {body : Text} (h : IsStringBody body) :
    ∀ c ∈ body, Glyph.isLineBreak c = false := by
  induction h with
  | nil => nofun
  | plain h _ ih => exact List.forall_mem_cons.mpr ⟨Glyph.isLineBreak_of_notMem h, ih⟩
  | escape h _ ih =>
    exact List.forall_mem_cons.mpr
      ⟨rfl, List.forall_mem_cons.mpr ⟨Glyph.isLineBreak_of_target h, ih⟩⟩

/-- **No literal goes over the end of a line.** -/
theorem Kind.Spells.isLineBreak {kind : Kind} {literal : Text} (h : kind.Spells literal) :
    ∀ c ∈ literal, Glyph.isLineBreak c = false := by
  have hquoted : ∀ {q : Char} {body : Text}, Glyph.isLineBreak q = false →
      (∀ c ∈ body, Glyph.isLineBreak c = false) →
        ∀ c ∈ q :: (body ++ [q]), Glyph.isLineBreak c = false := fun hq hbody =>
    List.forall_mem_cons.mpr
      ⟨hq, List.forall_mem_append.mpr ⟨hbody, List.forall_mem_singleton.mpr hq⟩⟩
  cases h with
  | identifier h hrest =>
    refine List.forall_mem_cons.mpr ⟨?_, fun d hd => ?_⟩
    · exact CharClass.eq_of_accepts CharClass.accepts_identifierStart h rfl
    · exact CharClass.eq_of_accepts CharClass.accepts_identifierPart (hrest d hd) rfl
  | integer h => exact h.isLineBreak
  | decimal h _ hfraction =>
    refine List.forall_mem_append.mpr ⟨h.isLineBreak, List.forall_mem_cons.mpr ⟨rfl, ?_⟩⟩
    exact fun d hd => CharClass.eq_of_accepts CharClass.accepts_digit (hfraction d hd) rfl
  | character h => exact hquoted rfl h.isLineBreak
  | string h => exact hquoted rfl h.isLineBreak
  | @pair c d h =>
    have hpairs : pairs.all (fun pair =>
        !Glyph.isLineBreak pair.1 && !Glyph.isLineBreak pair.2) = true := rfl
    have hpair := List.all_eq_true.mp hpairs (c, d) h
    simpa using hpair
  | @single c h =>
    refine List.forall_mem_singleton.mpr ?_
    have hwhite := (Glyph.isOperator_iff.mp h).1
    cases hbreak : Glyph.isLineBreak c with
    | false => rfl
    | true =>
      rcases Bool.or_eq_true_iff.mp hbreak with hc | hc
      · rw [eq_of_beq hc] at hwhite
        cases hwhite
      · rw [eq_of_beq hc] at hwhite
        cases hwhite

namespace Breaks

/-- What breaks off has begun, and not with white space. -/
theorem exists_cons {fault : Fault} {i : Nat} {text : Text} (h : Breaks fault i text) :
    ∃ c rest, text = c :: rest ∧ Glyph.isWhite c = false := by
  cases h with
  | leadingZero hsign _ =>
    rcases hsign with rfl | rfl
    · exact ⟨_, _, rfl, rfl⟩
    · exact ⟨_, _, rfl, rfl⟩
  | trailingPoint h _ =>
    obtain ⟨c, rest, rfl, hc⟩ := h.exists_cons
    exact ⟨c, _, rfl, CharClass.eq_of_accepts CharClass.accepts_numberStart hc rfl⟩
  | characterBody _ | characterEscape _ | characterUnclosed _ _ => exact ⟨_, _, rfl, rfl⟩
  | stringEscape _ _ | stringBody _ _ | stringUnclosed _ => exact ⟨_, _, rfl, rfl⟩

/-- The first character is never to blame. -/
theorem pos {fault : Fault} {i : Nat} {text : Text} (h : Breaks fault i text) : 0 < i := by
  cases h <;> omega

theorem offset_le {fault : Fault} {i : Nat} {text : Text} (h : Breaks fault i text) :
    fault.offset ≤ i := by
  have hpos := h.pos
  cases fault <;> simp only [Fault.offset] <;> omega

/-- The character to blame is one of the text, or the end of it is. -/
theorem le_length {fault : Fault} {i : Nat} {text : Text} (h : Breaks fault i text) :
    i ≤ text.length := by
  cases h <;> simp only [List.length_append, List.length_cons] <;> omega

end Breaks
end Lexis
