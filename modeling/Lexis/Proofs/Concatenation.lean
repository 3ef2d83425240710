/-
# Concatenation

Two sources may be put together with white space between them: the tokens of the first stay
as they are, and the second is read after them as it is read alone, also where it cannot be
read (`lex_concat`).  The white space may be left out where nothing that follows can carry on
the last token of the first source:

| the first source | example |
| --- | --- |
| is empty | |
| ends in white space | `x ` |
| ends with the closing quote of a character or a string | `'a'`, `x "b"` |
-/

import Lexis.Proofs.Restart

namespace Lexis

/-- No text that follows the source and the gap can carry on the last token. -/
def Sealed (source gap : Text) (tokens : List Token) : Prop :=
  gap ≠ [] ∨ source = [] ∨ source.getLast?.any Glyph.isWhite = true ∨
    ∃ t, tokens.getLast? = some t ∧ (t.kind = .character ∨ t.kind = .string) ∧
      t.stop = source.length

/-- A sealed path may be followed by any text. -/
theorem Scan.append_sealed {source gap : Text} {tokens : List Token}
    (h : Scan 0 source tokens []) (hgap : gap.all Glyph.isWhite = true)
    (hsealed : Sealed source gap tokens) (rest : Text) :
    Scan 0 (source ++ gap) tokens rest := by
  cases h.ending with
  | white hwhite =>
    have hall : (source ++ gap).all Glyph.isWhite = true :=
      List.all_append.trans (Bool.and_eq_true_iff.mpr ⟨hwhite, hgap⟩)
    exact (Ending.white hall).scan
  | @token i kind body literal trail before hbody hindex hspells _ hwhite =>
    have hall : (trail ++ gap).all Glyph.isWhite = true :=
      List.all_append.trans (Bool.and_eq_true_iff.mpr ⟨hwhite, hgap⟩)
    have hstop : kind.Stops literal ((trail ++ gap) ++ rest) := by
      by_cases hne : trail ++ gap = []
      · -- the last literal ends both, so it has to be one that nothing carries on
        obtain ⟨rfl, rfl⟩ := List.append_eq_nil_iff.mp hne
        rw [List.append_nil] at hsealed
        rcases hsealed with hgap | hnil | hlast | ⟨t, hlast, hkind, -⟩
        · exact absurd rfl hgap
        · exact absurd (List.append_eq_nil_iff.mp hnil).2 hspells.ne_nil
        · rw [List.getLast?_append, List.getLast?_eq_some_getLast hspells.ne_nil, Option.some_or,
            ← List.getLast?_eq_some_getLast hspells.ne_nil, hspells.getLast?_isWhite] at hlast
          cases hlast
        · rw [List.getLast?_concat] at hlast
          obtain rfl := Option.some.inj hlast
          rcases hkind with rfl | rfl
          · exact Kind.stops_character _ _
          · exact Kind.stops_string _ _
      · exact Kind.stops_white_append hne hall kind literal rest
    have hbody := hbody.congr_append hspells.ne_nil ((trail ++ gap) ++ rest)
    rw [List.append_assoc, List.append_assoc]
    exact (Ending.token hbody hindex hspells hstop hall).scan

/-- **Concatenation.**  A source that can be read, white space that seals it, and a second
source: the whole is read as the first one is, and after that as the second one is, which
succeeds or fails as it does alone, at indices further on by the length of what is before
it. -/
theorem lex_concat {a w : Text} {tokens : List Token} (ha : lex a = .ok tokens)
    (hw : w.all Glyph.isWhite = true) (hsealed : Sealed a w tokens) (b : Text) :
    lex (a ++ w ++ b) = Run.after tokens (a.length + w.length) (lex b) := by
  have hpath := (lex_eq_ok_iff_scan.mp ha).append_sealed hw hsealed b
  rw [hpath.lex_append, List.length_append]

/-- A character literal seals itself: what comes right after it fails as it does alone. -/
theorem lex_concat_closedQuote :
    lex ['\'', 'a', '\''] = .ok [⟨.character, ['\'', 'a', '\''], 0⟩] ∧
      lex ['x', '0', ' ', '0', '7'] = .error ⟨.leadingZero, 4, [⟨.identifier, ['x', '0'], 0⟩]⟩ ∧
        lex ['\'', 'a', '\'', 'x', '0', ' ', '0', '7'] = .error ⟨.leadingZero, 7,
          [⟨.character, ['\'', 'a', '\''], 0⟩, ⟨.identifier, ['x', '0'], 3⟩]⟩ := by
  have hfirst : lex ['\'', 'a', '\''] = .ok [⟨.character, ['\'', 'a', '\''], 0⟩] :=
    lex_eq_ok_of_scan (.literal (by decide) rfl)
  have hscan : Scan 0 (['x', '0'] ++ [' ']) [⟨.identifier, ['x', '0'], 0⟩] ['0', '7'] :=
    .token (by decide) rfl (.white rfl .done)
  have hsecond : lex ['x', '0', ' ', '0', '7'] =
      .error ⟨.leadingZero, 4, [⟨.identifier, ['x', '0'], 0⟩]⟩ :=
    lex_eq_error_of_scan hscan (.leadingZero (.inl rfl) rfl)
  have hboth := lex_concat hfirst (w := []) rfl (.inr (.inr (.inr ⟨_, rfl, .inl rfl, rfl⟩)))
    ['x', '0', ' ', '0', '7']
  rw [hsecond] at hboth
  exact ⟨hfirst, hsecond, hboth⟩

end Lexis
