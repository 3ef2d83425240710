/-
# What a failed run leaves

A run that fails takes nothing back.  What it took before the token that fails was made into
tokens or given up as white space; what it took of that token is pending, and nothing else is:

    tokens and white space │ pending                  │ ahead
    0                      nextStart of the tokens    position

The cursor stands at the index of the failure, or at the zero before it if a needless zero is
to blame (`lex_error_remains`).  What is pending begins a literal, so it has no line break
(`Breaks.isLineBreak_of_mem_take`).
-/

import Lexis.Proofs.Restart
import Lexis.Proofs.Safety
import Lexis.Proofs.Tiling
import Lexis.Proofs.ViablePrefix

namespace Lexis

/-- What was read of a literal before it breaks off has no line break. -/
theorem Breaks.isLineBreak_of_mem_take {fault : Fault} {i : Nat} {text : Text}
    (h : Breaks fault i text) : ∀ a ∈ text.take i, Glyph.isLineBreak a = false := by
  obtain ⟨part, rest, rfl, hpart, ⟨kind, tail, hspells⟩, -⟩ := h.exists_split
  rw [List.take_left' hpart]
  exact fun a ha => hspells.isLineBreak a (List.mem_append_left tail ha)

/-- **A failed run stands in a literal that breaks off.**  It followed a path up to the start of
that literal and took the part before the character to blame; a needless zero is not taken. -/
theorem Cursor.exists_scan_of_lex_error {source : Text} {f : Failure} {c : Cursor}
    (h : (ofSource source).lex = (.error f, c)) :
    ∃ text rest i, source = text ++ rest ∧ Scan 0 text f.tokens rest ∧ Breaks f.fault i rest ∧
      f.index = text.length + i ∧ c = (freshAt source text.length).take (i - f.fault.offset) := by
  have hlex : Lexis.lex source = .error f := congrArg Prod.fst h
  obtain ⟨text, rest, i, rfl, hscan, hbreak, hindex⟩ := lex_eq_error_iff_scan.mp hlex
  refine ⟨text, rest, i, rfl, hscan, hbreak, hindex, ?_⟩
  have hrun := congrArg Prod.snd (lex_of_scan_of_breaks hscan rfl hbreak)
  rw [Nat.zero_add] at hrun
  exact (congrArg Prod.snd h).symm.trans hrun

/-- What a run on a source leaves when it fails at a token that starts at index `s`. -/
structure Remains (source : Text) (f : Failure) (c : Cursor) (s : Nat) : Prop where
  /-- The token starts with a character of the source that is no white space. -/
  starts : ∃ a, source[s]? = some a ∧ Glyph.isWhite a = false
  /-- What lies before it was made into the tokens of the failure or is white space. -/
  tiling : Tiling source 0 s f.tokens
  /-- What was taken of it is pending, all of it and nothing else. -/
  source_eq : c.source = source
  start_eq : c.start = s
  le_position : s ≤ c.position
  position_le : c.position ≤ source.length
  pending_eq : c.pending = (source.drop s).take (c.position - s)
  /-- The cursor stands at the character to blame, or one before it. -/
  index_eq : f.index = c.position + if f.fault = .leadingZero then 1 else 0
  /-- The pending text does not go over the end of a line. -/
  inLine : ∀ a ∈ c.pending, Glyph.isLineBreak a = false

/-- **What a failed run leaves.**  The token that fails starts where the next token may start
after those that were read.  These and white space make up the source before it, and the text
taken since then is pending. -/
theorem lex_error_remains {source : Text} {f : Failure} {c : Cursor}
    (h : (Cursor.ofSource source).lex = (.error f, c)) :
    Remains source f c (nextStart f.tokens source) := by
  obtain ⟨text, rest, i, rfl, hscan, hbreak, hindex, rfl⟩ := Cursor.exists_scan_of_lex_error h
  obtain ⟨a, tail, hrest, ha⟩ := hbreak.exists_cons
  have hstart : nextStart f.tokens (text ++ rest) = text.length := by
    refine hscan.nextStart_eq ?_
    rw [hrest]
    exact ha
  have htiling := (hscan.tiling rfl).1
  have hoffset := hbreak.offset_le
  have hlength := hbreak.le_length
  have hdrop : (text ++ rest).drop text.length = rest := List.drop_left
  have hpending : ((Cursor.freshAt (text ++ rest) text.length).take (i - f.fault.offset)).pending =
      rest.take (i - f.fault.offset) := by
    simp only [Cursor.pending, Cursor.take, Cursor.freshAt, hdrop, Nat.zero_add]
  have hposition : ((Cursor.freshAt (text ++ rest) text.length).take
      (i - f.fault.offset)).position = text.length + (i - f.fault.offset) := by
    rw [Cursor.position_take, Cursor.position_freshAt]
  rw [Nat.zero_add] at htiling
  rw [hstart]
  constructor
  case starts =>
    refine ⟨a, ?_, ha⟩
    rw [← List.head?_drop, hdrop, hrest, List.head?_cons]
  case tiling => exact htiling
  case source_eq => rfl
  case start_eq => rfl
  case le_position => omega
  case position_le =>
    rw [hposition, List.length_append]
    omega
  case pending_eq => rw [hpending, hposition, hdrop, Nat.add_sub_cancel_left]
  case index_eq =>
    rw [hposition, ← Cursor.offset_eq]
    omega
  case inLine =>
    -- what was taken is all that was read, or that without a needless zero at its end
    intro b hb
    rw [hpending] at hb
    exact hbreak.isLineBreak_of_mem_take b (List.take_subset_take_left _ (Nat.sub_le _ _) hb)

/-- A needless zero after a sign: the sign is pending, and the cursor stands at the zero. -/
theorem lex_error_remains_sign :
    let source : Text := ['a', '\n', '-', '0', '7']
    let f : Failure := ⟨.leadingZero, 4, [⟨.identifier, ['a'], 0⟩]⟩
    let c := (Cursor.freshAt source 2).take 1
    (Cursor.ofSource source).lex = (.error f, c) ∧ Remains source f c 2 ∧ c.pending = ['-'] := by
  intro source f c
  have hscan : Scan 0 (['a'] ++ ['\n']) [⟨.identifier, ['a'], 0⟩] ['-', '0', '7'] :=
    .token (by decide) rfl (.white rfl .done)
  have hbreak : Breaks .leadingZero 2 (['-'] ++ ['0', '7']) := .leadingZero (.inr rfl) rfl
  have hlex : (Cursor.ofSource source).lex = (.error f, c) :=
    Cursor.lex_of_scan_of_breaks hscan rfl hbreak
  exact ⟨hlex, lex_error_remains hlex, rfl⟩

end Lexis
