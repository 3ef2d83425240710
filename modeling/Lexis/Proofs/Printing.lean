/-
# Printing

Literals can be printed with white space before, between and after them and are read again
as they are, provided that some white space stands between neighbours (`lex_print`).  The
white space itself is free: it may differ from place to place and may be left out at both
ends.
-/

import Lexis.Proofs.Scan

namespace Lexis

/-- A literal to be printed, with the gap in front of it. -/
structure Piece where
  gap : Text
  kind : Kind
  literal : Text
deriving DecidableEq, Repr

/-- A token without its index. -/
def Token.lexeme (t : Token) : Kind × Text := (t.kind, t.literal)

namespace Piece

/-- A piece without its gap. -/
def lexeme (p : Piece) : Kind × Text := (p.kind, p.literal)

/-- The pieces one after another, and a trail. -/
def print (pieces : List Piece) (trail : Text) : Text :=
  pieces.flatMap (fun p => p.gap ++ p.literal) ++ trail

/-- The tokens of the pieces, each with the index where its literal is printed, if the
first gap is printed at index `n`. -/
def place (n : Nat) : List Piece → List Token
  | [] => []
  | p :: pieces =>
    ⟨p.kind, p.literal, (n + p.gap.length : Nat)⟩ ::
      place (n + p.gap.length + p.literal.length) pieces

/-- Gaps and trail are white space, and no gap between two literals is empty. -/
structure Apart (pieces : List Piece) (trail : Text) : Prop where
  gap : ∀ p ∈ pieces, p.gap.all Glyph.isWhite = true
  trail : trail.all Glyph.isWhite = true
  between : ∀ p ∈ pieces.tail, p.gap ≠ []

theorem print_nil (trail : Text) : print [] trail = trail := rfl

theorem print_cons (p : Piece) (pieces : List Piece) (trail : Text) :
    print (p :: pieces) trail = p.gap ++ (p.literal ++ print pieces trail) := by
  simp only [print, List.flatMap_cons, List.append_assoc]

/-- Placing changes no literal and no kind. -/
theorem map_lexeme_place (n : Nat) (pieces : List Piece) :
    (place n pieces).map Token.lexeme = pieces.map lexeme := by
  induction pieces generalizing n with
  | nil => rfl
  | cons p pieces ih => exact congrArg (List.cons _) (ih _)

/-- A literal stops at what is printed after it. -/
theorem Apart.stops {p : Piece} {pieces : List Piece} {trail : Text}
    (h : Apart (p :: pieces) trail) : p.kind.Stops p.literal (print pieces trail) := by
  rcases pieces with _ | ⟨q, pieces⟩
  · rw [print_nil]
    by_cases hne : trail = []
    · rw [hne]
      rfl
    · rw [← List.append_nil trail]
      exact Kind.stops_white_append hne h.trail _ _ _
  · rw [print_cons]
    have hq : q ∈ q :: pieces := List.mem_cons_self ..
    exact Kind.stops_white_append (h.between q hq) (h.gap q (List.mem_cons_of_mem p hq)) _ _ _

theorem Apart.tail {p : Piece} {pieces : List Piece} {trail : Text}
    (h : Apart (p :: pieces) trail) : Apart pieces trail where
  gap q hq := h.gap q (List.mem_cons_of_mem p hq)
  trail := h.trail
  between q hq := h.between q (List.mem_of_mem_tail hq)

/-- What is printed is a path over the literals. -/
theorem scan_print {pieces : List Piece} {trail : Text} (h : Apart pieces trail)
    (hspells : ∀ p ∈ pieces, p.kind.Spells p.literal) (n : Nat) :
    Scan n (print pieces trail) (place n pieces) [] := by
  induction pieces generalizing n with
  | nil =>
    have hscan : Scan n (trail ++ []) [] [] := .white_append h.trail .done
    rwa [List.append_nil] at hscan
  | cons p pieces ih =>
    obtain ⟨hp, hspells⟩ := List.forall_mem_cons.mp hspells
    rw [print_cons]
    refine .white_append (h.gap p (List.mem_cons_self ..)) (.token hp ?_ (ih h.tail hspells _))
    rw [List.append_nil]
    exact h.stops

end Piece

/-- **What is printed is read again.**  Literals of any kinds, printed with white space
between them, are read as they are, each at the index where it was printed.  So the
literals of a source that can be read may be printed with other white space between them,
and are read again in the same kinds. -/
theorem lex_print :
    (∀ (pieces : List Piece) (trail : Text), Piece.Apart pieces trail →
      (∀ p ∈ pieces, p.kind.Spells p.literal) →
        lex (Piece.print pieces trail) = .ok (Piece.place 0 pieces)) ∧
    ∀ (source : Text) (tokens : List Token), lex source = .ok tokens →
      ∀ (pieces : List Piece) (trail : Text), Piece.Apart pieces trail →
        pieces.map Piece.lexeme = tokens.map Token.lexeme →
          ∃ again, lex (Piece.print pieces trail) = .ok again ∧
            again.map Token.lexeme = tokens.map Token.lexeme := by
  have hprint : ∀ (pieces : List Piece) (trail : Text), Piece.Apart pieces trail →
      (∀ p ∈ pieces, p.kind.Spells p.literal) →
        lex (Piece.print pieces trail) = .ok (Piece.place 0 pieces) :=
    fun pieces trail hapart hspells => lex_eq_ok_of_scan (Piece.scan_print hapart hspells 0)
  refine ⟨hprint, fun source tokens hlex pieces trail hapart hsame => ?_⟩
  have htokens := (lex_eq_ok_iff_scan.mp hlex).spells
  refine ⟨Piece.place 0 pieces, hprint pieces trail hapart fun p hp => ?_, ?_⟩
  · have hmem : p.lexeme ∈ tokens.map Token.lexeme := hsame ▸ List.mem_map_of_mem hp
    obtain ⟨t, ht, heq⟩ := List.mem_map.mp hmem
    obtain ⟨hkind, hliteral⟩ := Prod.mk.inj heq
    exact hkind ▸ hliteral ▸ htokens t ht
  · rw [Piece.map_lexeme_place, hsame]

/-- A sign, a decimal without digits before its point and an escaped quote, at first with
as little white space as possible and then with more. -/
theorem lex_print_sign :
    lex ['-', ' ', '-', '.', '5', '\t', '\'', '\\', '\'', '\''] =
        .ok [⟨.integer, ['-'], 0⟩, ⟨.decimal, ['-', '.', '5'], 2⟩,
          ⟨.character, ['\'', '\\', '\'', '\''], 6⟩] ∧
      ∃ again, lex ['\n', '-', '\r', '\n', '-', '.', '5', ' ', ' ', '\'', '\\', '\'', '\'', ' '] =
          .ok again ∧
        again.map Token.lexeme = [(.integer, ['-']), (.decimal, ['-', '.', '5']),
          (.character, ['\'', '\\', '\'', '\''])] := by
  have hclose := lex_print.1
    [⟨[], .integer, ['-']⟩, ⟨[' '], .decimal, ['-', '.', '5']⟩,
      ⟨['\t'], .character, ['\'', '\\', '\'', '\'']⟩] []
    ⟨by decide, by decide, by decide⟩ (by decide)
  have hwide := lex_print.2 _ _ hclose
    [⟨['\n'], .integer, ['-']⟩, ⟨['\r', '\n'], .decimal, ['-', '.', '5']⟩,
      ⟨[' ', ' '], .character, ['\'', '\\', '\'', '\'']⟩] [' ']
    ⟨by decide, by decide, by decide⟩ rfl
  exact ⟨hclose, hwide⟩

end Lexis
