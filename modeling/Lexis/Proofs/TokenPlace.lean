/-
# Places of tokens

A token of a run lies within one line: its literal has no line break.  So its end is in the
line of its start, as many columns further on as it has characters, and the text that is shown
of the line has the literal in just these columns.  This holds of the tokens before a failure
as well, and in the order of the tokens their places go forward (`lex_tokens_located`).
-/

import Lexis.Proofs.Lines
import Lexis.Proofs.Restart
import Lexis.Proofs.Tiling

namespace Lexis

/-! ## Parts of a line -/

section

variable {before part : Text}

/-- Without a line feed a text ends in the line where it starts. -/
theorem Location.ofText_append (name : Text) (h : '\n' ∉ part) (before : Text) :
    ofText name (before ++ part) =
      ⟨name, before.count '\n' + 1, (lastLine before).length + 1 + part.length⟩ := by
  rw [ofText, List.count_append, List.count_eq_zero.mpr h, lastLine_append h, List.length_append,
    Nat.add_zero]
  congr 1
  omega

/-- A part of a source without a line break is shown in the line of its start. -/
theorem lineText_append (h : ∀ c ∈ part, Glyph.isLineBreak c = false) (hne : part ≠ [])
    (before after : Text) :
    lineText (before ++ (part ++ after)) before.length =
      Location.lastLine before ++
        (part ++ dropTrailingReturns (after.takeWhile (· != '\n'))) := by
  have hfeed : ∀ c ∈ part, (c != '\n') = true := by
    intro c hc
    rw [bne_iff_ne]
    rintro rfl
    exact absurd (h _ hc) (by decide)
  have hlast : (Location.lastLine before ++ part).getLast? ≠ some '\r' := by
    rw [List.getLast?_append, List.getLast?_eq_some_getLast hne, Option.some_or]
    intro hreturn
    have hbreak := h _ (List.getLast_mem hne)
    rw [Option.some.inj hreturn] at hbreak
    exact absurd hbreak (by decide)
  have hstart : before.length ≤ (before ++ (part ++ after)).length := by
    rw [List.length_append]
    exact Nat.le_add_right ..
  simp only [lineText, clampIndex_natCast hstart, List.take_left, List.drop_left,
    List.takeWhile_append_of_pos hfeed]
  rw [← List.append_assoc, dropTrailingReturns_append hlast, List.append_assoc]

end

/-! ## Tokens -/

/-- The token lies in one line of the source, and its literal is shown there. -/
structure Token.IsInLine (t : Token) (name source : Text) : Prop where
  /-- The literal has no line break. -/
  isLineBreak : ∀ c ∈ t.literal, c ≠ '\n' ∧ c ≠ '\r'
  /-- Start and end are in one line, and what is shown from the column of the start on is the
  literal. -/
  located : ∃ line column : Nat,
    Location.ofIndex name source t.index = .ok ⟨name, line, column⟩ ∧
      Location.ofIndex name source t.stop =
        .ok ⟨name, line, (column + t.literal.length : Nat)⟩ ∧
      1 ≤ column ∧
      ((lineText source t.index).drop (column - 1)).take t.literal.length = t.literal

/-- What has been read is tiled by literals, whether the run succeeds or fails. -/
theorem exists_tiling_of_lex (source : Text) :
    ∃ stop, stop ≤ source.length ∧ Tiling source 0 stop (Run.tokens (lex source)) ∧
      ∀ t ∈ Run.tokens (lex source), t.IsLexemeOf source := by
  cases hlex : lex source with
  | ok tokens =>
    have htiling := (lex_eq_ok_iff_scan.mp hlex).tiling (List.append_nil source).symm
    rw [Nat.zero_add] at htiling
    exact ⟨source.length, Nat.le_refl _, htiling⟩
  | error f =>
    obtain ⟨text, rest, i, rfl, hscan, -⟩ := lex_eq_error_iff_scan.mp hlex
    have htiling := hscan.tiling rfl
    rw [Nat.zero_add] at htiling
    exact ⟨text.length, by rw [List.length_append]; exact Nat.le_add_right .., htiling⟩

/-- A literal that stands in a source is in one of its lines. -/
theorem Kind.Spells.isInLine {kind : Kind} {literal : Text} (h : kind.Spells literal)
    (name before after : Text) :
    Token.IsInLine ⟨kind, literal, before.length⟩ name (before ++ (literal ++ after)) := by
  have hbreak := h.isLineBreak
  have hfeed : '\n' ∉ literal := fun hmem => absurd (hbreak _ hmem) (by decide)
  have hstart : before.length ≤ (before ++ (literal ++ after)).length := by
    rw [List.length_append]
    exact Nat.le_add_right ..
  have hstop : before.length + literal.length ≤ (before ++ (literal ++ after)).length := by
    rw [List.length_append, List.length_append]
    omega
  have htake : (before ++ (literal ++ after)).take (before.length + literal.length) =
      before ++ literal := by
    rw [← List.append_assoc, List.take_left' (List.length_append ..)]
  constructor
  case isLineBreak =>
    intro c hc
    have hnot := hbreak c hc
    simp only [Glyph.isLineBreak, Bool.or_eq_false_iff, beq_eq_false_iff_ne] at hnot
    exact hnot
  case located =>
    refine ⟨before.count '\n' + 1, (Location.lastLine before).length + 1, ?_, ?_, ?_, ?_⟩
    · rw [Location.ofIndex_natCast hstart, List.take_left]
      rfl
    · have hindex : Token.stop ⟨kind, literal, before.length⟩ =
          (before.length + literal.length : Nat) := rfl
      rw [hindex, Location.ofIndex_natCast hstop, htake, Location.ofText_append name hfeed]
      rfl
    · exact Nat.le_add_left ..
    · rw [lineText_append hbreak h.ne_nil, Nat.add_sub_cancel, List.drop_left, List.take_left]

/-- A source is what comes before a token, the literal of the token, and what comes after it. -/
theorem Tiling.exists_split {source : Text} {b : Nat} {tokens : List Token}
    (h : Tiling source 0 b tokens) (hb : b ≤ source.length) {t : Token} (ht : t ∈ tokens) :
    ∃ before after, source = before ++ (t.literal ++ after) ∧ t.index = before.length := by
  obtain ⟨hstart, hlt, hstop⟩ := h.span t ht
  refine ⟨source.take t.index.toNat, (source.drop t.index.toNat).drop t.literal.length, ?_, ?_⟩
  · have hliteral := List.take_append_drop t.literal.length (source.drop t.index.toNat)
    rw [h.literal t ht] at hliteral
    rw [hliteral, List.take_append_drop]
  · rw [List.length_take]
    omega

/-- **A place points at the text of its token.**  Every token that a run reads, also one before
a failure, lies in one line of the source and is shown there from its column on, and the places
of the tokens go forward. -/
theorem lex_tokens_located (name source : Text) :
    (∀ t ∈ Run.tokens (lex source), t.IsInLine name source) ∧
      (Run.tokens (lex source)).Pairwise fun t u => ∃ l m,
        Location.ofIndex name source t.index = .ok l ∧
          Location.ofIndex name source u.index = .ok m ∧ l.Before m := by
  obtain ⟨stop, hstop, htiling, hlexemes⟩ := exists_tiling_of_lex source
  have hlocated : ∀ t ∈ Run.tokens (lex source), t.IsInLine name source := by
    intro t ht
    obtain ⟨before, after, hsource, hindex⟩ := htiling.exists_split hstop ht
    have hline := (hlexemes t ht).spells.isInLine name before after
    rwa [← hindex, ← hsource] at hline
  refine ⟨hlocated, htiling.ordered.imp_of_mem fun {t u} ht hu hordered => ?_⟩
  obtain ⟨line, column, hplace, -⟩ := (hlocated t ht).located
  obtain ⟨line', column', hplace', -⟩ := (hlocated u hu).located
  have hspan := htiling.span t ht
  have hlt : t.index < u.index := by omega
  exact ⟨_, _, hplace, hplace', (Location.before_iff hplace hplace').mp hlt⟩

end Lexis
