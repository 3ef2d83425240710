/-
# Every text starts with a literal

A text that does not start with white space starts with a literal that is whole and not
carried on, or with one that breaks off (`beginsWhole_or_beginsBroken`).  So the languages
of `Lexis.Proofs.Literal` leave no text undecided.
-/

import Lexis.Proofs.Literal

namespace Lexis

/-- The text starts with a whole literal that is not carried on. -/
def BeginsWhole (text : Text) : Prop :=
  ∃ kind literal rest, text = literal ++ rest ∧ Kind.Spells kind literal ∧ kind.Stops literal rest

/-- The text starts with a literal that breaks off. -/
def BeginsBroken (text : Text) : Prop := ∃ fault i, Breaks fault i text

/-- A text is a longest run of a class and a rest that does not go on with it. -/
theorem exists_run (p : Char → Bool) (text : Text) :
    ∃ part rest, text = part ++ rest ∧ (∀ c ∈ part, p c = true) ∧ rest.head?.any p = false := by
  refine ⟨text.takeWhile p, text.dropWhile p, List.takeWhile_append_dropWhile.symm,
    fun c hc => List.all_eq_true.mp List.all_takeWhile c hc, ?_⟩
  have hstop := List.head?_dropWhile_not p text
  cases hhead : (text.dropWhile p).head? with
  | none => rfl
  | some c => simpa [hhead] using hstop

/-! ## Identifiers and operators -/

theorem beginsWhole_identifier {c : Char} (h : Glyph.isIdentifierStart c = true)
    (text : Text) : BeginsWhole (c :: text) := by
  obtain ⟨part, rest, rfl, hpart, hstop⟩ := exists_run Glyph.isIdentifierPart text
  exact ⟨.identifier, c :: part, rest, rfl, .identifier h hpart, hstop⟩

/-- An operator of one character is the whole of the longest operator or begins it. -/
theorem exists_operator {c : Char} (h : Glyph.isOperator c = true) (text : Text) :
    ∃ more rest, text = more ++ rest ∧ Kind.operator.Spells (c :: more) ∧
      Kind.operator.Stops (c :: more) rest := by
  rcases text with _ | ⟨d, rest⟩
  · exact ⟨[], [], rfl, .single h, rfl⟩
  by_cases hpair : (c, d) ∈ Kind.pairs
  · exact ⟨[d], rest, rfl, .pair hpair, Kind.stops_pair c d rest⟩
  · refine ⟨[], d :: rest, rfl, .single h, ?_⟩
    rw [Kind.Stops, List.head?_cons, Option.any_some, Kind.carriesOn_operator, Bool.eq_false_iff]
    exact fun hcontains => hpair (List.contains_iff_mem.mp hcontains)

theorem beginsWhole_operator {c : Char} (h : Glyph.isOperator c = true) (text : Text) :
    BeginsWhole (c :: text) := by
  obtain ⟨more, rest, rfl, hspells, hstop⟩ := exists_operator h text
  exact ⟨.operator, c :: more, rest, rfl, hspells, hstop⟩

/-! ## Numbers -/

/-- Digits are a whole number, unless there are none or the first is a needless zero. -/
theorem isWhole_or_needlessZero {ds : Text} (h : ∀ c ∈ ds, c.isDigit = true) :
    ds = [] ∨ IsWhole ds ∨ ∃ d rest, ds = '0' :: d :: rest ∧ d.isDigit = true := by
  rcases ds with _ | ⟨c, ds⟩
  · exact .inl rfl
  obtain ⟨hc, hds⟩ := List.forall_mem_cons.mp h
  by_cases hzero : c = '0'
  · subst hzero
    rcases ds with _ | ⟨d, rest⟩
    · exact .inr (.inl .zero)
    · exact .inr (.inr ⟨d, rest, rfl, hds d (List.mem_cons_self ..)⟩)
  · exact .inr (.inl (.digits hc hzero hds))

/-- After an integer that no digit carries on, a number ends, has a fraction or lacks one. -/
theorem begins_of_integer {whole rest : Text} (h : IsInteger whole)
    (hrest : rest.head?.any Char.isDigit = false) :
    BeginsWhole (whole ++ rest) ∨ BeginsBroken (whole ++ rest) := by
  rcases rest with _ | ⟨c, rest⟩
  · exact .inl ⟨.integer, whole, [], rfl, .integer h, rfl⟩
  by_cases hpoint : c = '.'
  · subst hpoint
    obtain ⟨part, tail, rfl, hpart, hstop⟩ := exists_run Char.isDigit rest
    by_cases hne : part = []
    · subst hne
      exact .inr ⟨_, _, .trailingPoint h hstop⟩
    · exact .inl ⟨.decimal, whole ++ '.' :: part, tail, by simp, .decimal h hne hpart, hstop⟩
  · have hc : (c == '.') = false := beq_false_of_ne hpoint
    exact .inl ⟨.integer, whole, c :: rest, rfl, .integer h, Bool.or_eq_false_iff.mpr ⟨hrest, hc⟩⟩

theorem begins_number {c : Char} (h : Glyph.isNumberStart c = true) (text : Text) :
    BeginsWhole (c :: text) ∨ BeginsBroken (c :: text) := by
  obtain ⟨sign, unsigned, heq, hsign, hne⟩ : ∃ sign unsigned, c :: text = sign ++ unsigned ∧
      (sign = [] ∨ sign = ['-']) ∧
        (sign = [] → unsigned.head?.any Char.isDigit = true) := by
    rcases Bool.or_eq_true_iff.mp h with hdigit | hminus
    · exact ⟨[], c :: text, rfl, .inl rfl, fun _ => hdigit⟩
    · obtain rfl := eq_of_beq hminus
      exact ⟨['-'], text, rfl, .inr rfl, fun habsurd => absurd habsurd (List.cons_ne_nil _ _)⟩
  obtain ⟨ds, rest, rfl, hds, hstop⟩ := exists_run Char.isDigit unsigned
  rcases isWhole_or_needlessZero hds with rfl | hwhole | ⟨d, tail, rfl, hd⟩
  · -- without digits there is a sign, and the sign alone counts as an integer
    rcases hsign with rfl | rfl
    · exact absurd ((hne rfl).symm.trans hstop) (by decide)
    · rw [heq]
      exact begins_of_integer .sign hstop
  · rw [heq, ← List.append_assoc]
    rcases hsign with rfl | rfl
    · exact begins_of_integer (.unsigned hwhole) hstop
    · exact begins_of_integer (.signed hwhole) hstop
  · rw [heq]
    exact .inr ⟨_, _, .leadingZero hsign hd⟩

/-! ## Character and string literals -/

theorem begins_of_characterBody {body : Text} (h : IsCharacterBody body) (rest : Text) :
    BeginsWhole ('\'' :: (body ++ rest)) ∨ BeginsBroken ('\'' :: (body ++ rest)) := by
  by_cases hquote : rest.head? = some '\''
  · obtain ⟨tail, rfl⟩ := List.head?_eq_some_iff.mp hquote
    have heq : '\'' :: (body ++ '\'' :: tail) = '\'' :: (body ++ ['\'']) ++ tail := by
      rw [List.cons_append, List.append_assoc, List.singleton_append]
    exact .inl ⟨.character, _, tail, heq, .character h, Kind.stops_character _ _⟩
  · exact .inr ⟨_, _, .characterUnclosed h hquote⟩

theorem begins_character (text : Text) :
    BeginsWhole ('\'' :: text) ∨ BeginsBroken ('\'' :: text) := by
  rcases text with _ | ⟨c, rest⟩
  · exact .inr ⟨_, _, .characterBody rfl⟩
  by_cases hbackslash : c = '\\'
  · subst hbackslash
    rcases rest with _ | ⟨target, rest⟩
    · exact .inr ⟨_, _, .characterEscape rfl⟩
    cases htarget : Glyph.isEscapeTarget target with
    | true => exact begins_of_characterBody (.escape htarget) rest
    | false => exact .inr ⟨_, _, .characterEscape htarget⟩
  · by_cases hbody : c ∈ ['\'', '\n', '\r']
    · exact .inr ⟨_, _, .characterBody (List.contains_iff_mem.mpr hbody)⟩
    · have hplain : c ∉ ['\\', '\'', '\n', '\r'] :=
        List.not_mem_cons_of_ne_of_not_mem hbackslash hbody
      exact begins_of_characterBody (.plain hplain) rest

/-- What a string body cannot go on with. -/
inductive EndsStringBody : Text → Prop where
  | input : EndsStringBody []
  | quote {rest : Text} : EndsStringBody ('"' :: rest)
  | lineBreak {c : Char} {rest : Text} (hc : c = '\n' ∨ c = '\r') : EndsStringBody (c :: rest)
  | escape {rest : Text} (hrest : rest.head?.any Glyph.isEscapeTarget = false) :
      EndsStringBody ('\\' :: rest)

/-- A text is a string body and something that ends it. -/
theorem exists_stringBody (text : Text) :
    ∃ body rest, text = body ++ rest ∧ IsStringBody body ∧ EndsStringBody rest := by
  rcases text with _ | ⟨c, text⟩
  · exact ⟨[], [], rfl, .nil, .input⟩
  by_cases hc : c ∈ ['\\', '"', '\n', '\r']
  · rcases List.mem_cons.mp hc with rfl | hc
    · rcases text with _ | ⟨target, text⟩
      · exact ⟨[], ['\\'], rfl, .nil, .escape rfl⟩
      cases htarget : Glyph.isEscapeTarget target with
      | true =>
        obtain ⟨body, rest, rfl, hbody, hrest⟩ := exists_stringBody text
        exact ⟨'\\' :: target :: body, rest, rfl, .escape htarget hbody, hrest⟩
      | false => exact ⟨[], _, rfl, .nil, .escape htarget⟩
    · rcases List.mem_cons.mp hc with rfl | hc
      · exact ⟨[], _, rfl, .nil, .quote⟩
      · exact ⟨[], _, rfl, .nil, .lineBreak (by simpa using hc)⟩
  · obtain ⟨body, rest, rfl, hbody, hrest⟩ := exists_stringBody text
    exact ⟨c :: body, rest, rfl, .plain hc hbody, hrest⟩
termination_by text.length

theorem begins_string (text : Text) :
    BeginsWhole ('"' :: text) ∨ BeginsBroken ('"' :: text) := by
  obtain ⟨body, rest, rfl, hbody, hrest⟩ := exists_stringBody text
  cases hrest with
  | input => exact .inr ⟨_, _, by simpa using Breaks.stringUnclosed hbody⟩
  | @quote rest =>
    have heq : '"' :: (body ++ '"' :: rest) = '"' :: (body ++ ['"']) ++ rest := by
      rw [List.cons_append, List.append_assoc, List.singleton_append]
    exact .inl ⟨.string, _, rest, heq, .string hbody, Kind.stops_string _ _⟩
  | lineBreak hc => exact .inr ⟨_, _, .stringBody hbody hc⟩
  | escape hrest => exact .inr ⟨_, _, .stringEscape hbody hrest⟩

/-! ## Any text -/

/-- **Every text that does not start with white space starts with a literal**, whole or
broken off. -/
theorem beginsWhole_or_beginsBroken {c : Char} (hwhite : Glyph.isWhite c = false)
    (text : Text) : BeginsWhole (c :: text) ∨ BeginsBroken (c :: text) := by
  cases hidentifier : Glyph.isIdentifierStart c with
  | true => exact .inl (beginsWhole_identifier hidentifier text)
  | false =>
  cases hnumber : Glyph.isNumberStart c with
  | true => exact begins_number hnumber text
  | false =>
  by_cases hsingle : c = '\''
  · rw [hsingle]
    exact begins_character text
  by_cases hdouble : c = '"'
  · rw [hdouble]
    exact begins_string text
  · have hoperator : Glyph.isOperator c = true :=
      Glyph.isOperator_iff.mpr ⟨hwhite, hidentifier, hnumber, hsingle, hdouble⟩
    exact .inl (beginsWhole_operator hoperator text)

end Lexis
