/-
# Tilings

What a run has read, said by indices alone.  The spans of the tokens lie one after another
in the source, each holds the literal of its token, and what lies in none of them is white
space (`Tiling`).  Moreover each literal is of its kind and is not carried on by the
character that follows it in the source (`Token.IsLexemeOf`).

The tokens of a tiling up to the end of the source are exactly those that a run returns
(`lex_eq_ok_iff`); a run fails exactly where a tiling ends at a literal that breaks off
(`lex_eq_error_iff`).
-/

import Lexis.Proofs.Scan

namespace Lexis

/-- The tokens tile the source from index `a` to index `b`. -/
structure Tiling (source : Text) (a b : Nat) (tokens : List Token) : Prop where
  /-- The spans are not empty and lie in the window. -/
  span : ∀ t ∈ tokens, a ≤ t.index ∧ t.index < t.stop ∧ t.stop ≤ b
  /-- A literal is what the source holds in the span. -/
  literal : ∀ t ∈ tokens, (source.drop t.index.toNat).take t.literal.length = t.literal
  /-- The spans come one after another. -/
  ordered : tokens.Pairwise fun t u => t.stop ≤ u.index
  /-- A character of the window that lies in no span is white space. -/
  white : ∀ i : Nat, a ≤ i → i < b → (∀ t ∈ tokens, ¬(t.index ≤ i ∧ i < t.stop)) →
    source[i]?.any Glyph.isWhite = true

/-- The literal is of its kind, and the character of the source that follows it, if there
is one, does not carry it on. -/
structure Token.IsLexemeOf (t : Token) (source : Text) : Prop where
  spells : t.kind.Spells t.literal
  stops : source[t.stop.toNat]?.any (t.kind.carriesOn t.literal) = false

namespace Token

variable {t : Token} {source : Text}

/-- The end of a token that starts at an index of a source. -/
theorem toNat_stop {a : Nat} (hindex : t.index = a) : t.stop.toNat = a + t.literal.length := by
  rw [stop, hindex]
  omega

/-- A lexeme stops in view of all of the source that follows it. -/
theorem IsLexemeOf.stops_drop (h : t.IsLexemeOf source) :
    t.kind.Stops t.literal (source.drop t.stop.toNat) := by
  rw [Kind.Stops, List.head?_drop]
  exact h.stops

/-- A lexeme is the longest: no literal of any kind that starts with it in the source is
longer. -/
theorem IsLexemeOf.length_le (h : t.IsLexemeOf source) {a : Nat} (hindex : t.index = a)
    (hliteral : (source.drop a).take t.literal.length = t.literal) {kind : Kind}
    {literal : Text} (hspells : kind.Spells literal) (hbegins : literal <+: source.drop a) :
    literal.length ≤ t.literal.length := by
  have hsource : source.drop a = t.literal ++ source.drop t.stop.toNat := by
    have hsplit := List.take_append_drop t.literal.length (source.drop a)
    rw [hliteral, List.drop_drop, ← toNat_stop hindex] at hsplit
    exact hsplit.symm
  exact h.spells.length_le h.stops_drop hspells (hsource ▸ hbegins)

end Token

namespace Tiling

variable {source : Text} {a b : Nat} {tokens : List Token}

/-- Nothing tiles an empty window. -/
theorem empty (source : Text) (a : Nat) : Tiling source a a [] where
  span _ ht := absurd ht List.not_mem_nil
  literal _ ht := absurd ht List.not_mem_nil
  ordered := .nil
  white i h₁ h₂ := by omega

/-- The window may start one white space earlier. -/
theorem white_cons (hwhite : source[a]?.any Glyph.isWhite = true)
    (h : Tiling source (a + 1) b tokens) : Tiling source a b tokens where
  span t ht := by
    have := h.span t ht
    omega
  literal := h.literal
  ordered := h.ordered
  white i h₁ h₂ hout := by
    rcases Nat.eq_or_lt_of_le h₁ with rfl | hlt
    · exact hwhite
    · exact h.white i hlt h₂ hout

/-- The window may start one token earlier. -/
theorem token_cons {t : Token} (hindex : t.index = a) (hne : t.literal ≠ [])
    (hliteral : (source.drop a).take t.literal.length = t.literal)
    (hle : a + t.literal.length ≤ b) (h : Tiling source (a + t.literal.length) b tokens) :
    Tiling source a b (t :: tokens) where
  span := by
    have hpos := List.length_pos_iff.mpr hne
    refine List.forall_mem_cons.mpr ⟨?_, fun u hu => ?_⟩
    · simp only [Token.stop]
      omega
    · have := h.span u hu
      omega
  literal := by
    refine List.forall_mem_cons.mpr ⟨?_, h.literal⟩
    rw [hindex]
    exact hliteral
  ordered := by
    refine List.pairwise_cons.mpr ⟨fun u hu => ?_, h.ordered⟩
    have := (h.span u hu).1
    simp only [Token.stop]
    omega
  white i h₁ h₂ hout := by
    obtain ⟨hnot, hout⟩ := List.forall_mem_cons.mp hout
    simp only [Token.stop] at hnot
    exact h.white i (by omega) h₂ hout

/-- A window that is not empty starts with white space or with the first token. -/
theorem cases_lt (h : Tiling source a b tokens) (hlt : a < b) :
    (source[a]?.any Glyph.isWhite = true ∧ Tiling source (a + 1) b tokens) ∨
      ∃ t rest, tokens = t :: rest ∧ t.index = a ∧ a + t.literal.length ≤ b ∧
        Tiling source (a + t.literal.length) b rest := by
  by_cases hfirst : ∃ t rest, tokens = t :: rest ∧ t.index = a
  · obtain ⟨t, rest, rfl, hindex⟩ := hfirst
    obtain ⟨hspan, hspans⟩ := List.forall_mem_cons.mp h.span
    obtain ⟨hbefore, hordered⟩ := List.pairwise_cons.mp h.ordered
    simp only [Token.stop] at hspan hbefore
    refine .inr ⟨t, rest, rfl, hindex, by omega, ?_, (List.forall_mem_cons.mp h.literal).2,
      hordered, fun i h₁ h₂ hout => ?_⟩
    · intro u hu
      have := hspans u hu
      have := hbefore u hu
      omega
    · refine h.white i (by omega) h₂ (List.forall_mem_cons.mpr ⟨?_, hout⟩)
      simp only [Token.stop]
      omega
  · -- no span holds the first character, so it is white space
    have hlater : ∀ t ∈ tokens, (a : Int) < t.index := by
      rcases tokens with _ | ⟨t, rest⟩
      · exact fun t ht => absurd ht List.not_mem_nil
      have hne : t.index ≠ a := fun hindex => hfirst ⟨t, rest, rfl, hindex⟩
      have hspan := h.span t (List.mem_cons_self ..)
      obtain ⟨hbefore, -⟩ := List.pairwise_cons.mp h.ordered
      refine List.forall_mem_cons.mpr ⟨by omega, fun u hu => ?_⟩
      have := hbefore u hu
      omega
    refine .inl ⟨h.white a (Nat.le_refl a) hlt fun t ht => ?_, ?_, h.literal, h.ordered,
      fun i h₁ h₂ hout => h.white i (by omega) h₂ hout⟩
    · have := hlater t ht
      omega
    · intro t ht
      have := h.span t ht
      have := hlater t ht
      omega

end Tiling

/-! ## Tilings and paths -/

variable {source : Text}

/-- A path gives a tiling of the window it crosses. -/
theorem Scan.tiling {n : Nat} {text rest : Text} {tokens : List Token}
    (h : Scan n text tokens rest) (hahead : source.drop n = text ++ rest) :
    Tiling source n (n + text.length) tokens ∧ ∀ t ∈ tokens, t.IsLexemeOf source := by
  induction h with
  | done => exact ⟨.empty source _, fun t ht => absurd ht List.not_mem_nil⟩
  | @white n c text tokens rest hc _ ih =>
    have hwhite : source[n]?.any Glyph.isWhite = true := by
      rw [← List.head?_drop, hahead]
      exact hc
    have hnext : source.drop (n + 1) = text ++ rest := by
      rw [← List.drop_drop, hahead, List.cons_append, List.drop_one, List.tail_cons]
    obtain ⟨htiling, hlexemes⟩ := ih hnext
    refine ⟨.white_cons hwhite ?_, hlexemes⟩
    rwa [List.length_cons, Nat.add_comm text.length, ← Nat.add_assoc]
  | @token n kind literal text tokens rest h hstop _ ih =>
    rw [List.append_assoc] at hahead
    have hnext : source.drop (n + literal.length) = text ++ rest := by
      rw [← List.drop_drop, hahead, List.drop_left]
    obtain ⟨htiling, hlexemes⟩ := ih hnext
    constructor
    · refine .token_cons rfl h.ne_nil (by rw [hahead, List.take_left]) ?_ ?_
      · show n + literal.length ≤ n + (literal ++ text).length
        rw [List.length_append]
        omega
      · rwa [List.length_append, ← Nat.add_assoc]
    · refine List.forall_mem_cons.mpr ⟨⟨h, ?_⟩, hlexemes⟩
      have hend : (Token.stop ⟨kind, literal, n⟩).toNat = n + literal.length := Token.toNat_stop rfl
      rw [hend, ← List.head?_drop, hnext]
      exact hstop

/-- The text of a window and what follows it. -/
theorem take_drop_append_drop {a b : Nat} (hab : a ≤ b) (source : Text) :
    (source.drop a).take (b - a) ++ source.drop b = source.drop a := by
  have hdrop : source.drop b = (source.drop a).drop (b - a) := by
    rw [List.drop_drop, Nat.add_sub_cancel' hab]
  rw [hdrop, List.take_append_drop]

/-- A window falls into two at any index in it. -/
theorem take_drop_split {a m b : Nat} (ham : a ≤ m) (hmb : m ≤ b) (source : Text) :
    (source.drop a).take (b - a) =
      (source.drop a).take (m - a) ++ (source.drop m).take (b - m) := by
  have hwidth : b - a = (m - a) + (b - m) := by omega
  rw [hwidth, List.take_add, List.drop_drop, Nat.add_sub_cancel' ham]

/-- A tiling by lexemes is a path through the window. -/
theorem Tiling.scan {a b : Nat} {tokens : List Token} (h : Tiling source a b tokens)
    (hlexemes : ∀ t ∈ tokens, t.IsLexemeOf source) (hab : a ≤ b) :
    Scan a ((source.drop a).take (b - a)) tokens (source.drop b) := by
  rcases Nat.eq_or_lt_of_le hab with rfl | hlt
  · have hnil : tokens = [] := List.eq_nil_iff_forall_not_mem.mpr fun t ht => by
      have := h.span t ht
      omega
    rw [hnil, Nat.sub_self, List.take_zero]
    exact .done
  rcases h.cases_lt hlt with ⟨hwhite, htail⟩ | ⟨t, rest, rfl, hindex, hle, htail⟩
  · obtain ⟨c, hchar, hc⟩ := (Option.any_eq_true ..).mp hwhite
    obtain ⟨hsource, rfl⟩ := List.getElem?_eq_some_iff.mp hchar
    have hscan := htail.scan hlexemes hlt
    rw [List.drop_eq_getElem_cons hsource, show b - a = b - (a + 1) + 1 by omega,
      List.take_succ_cons]
    exact .white hc hscan
  · obtain ⟨hlexeme, hlexemes⟩ := List.forall_mem_cons.mp hlexemes
    have hpos := hlexeme.spells.length_pos
    have hscan := htail.scan hlexemes hle
    have hliteral := h.literal t (List.mem_cons_self ..)
    have hstop := hlexeme.stops_drop
    have hsplit := take_drop_split (Nat.le_add_right a _) hle source
    have ht : t = ⟨t.kind, t.literal, a⟩ := by rw [← hindex]
    rw [hindex, Int.toNat_natCast] at hliteral
    rw [Token.toNat_stop hindex, ← take_drop_append_drop hle] at hstop
    rw [Nat.add_sub_cancel_left, hliteral] at hsplit
    rw [hsplit, ht]
    exact .token hlexeme.spells hstop hscan
termination_by b - a

/-! ## Runs -/

/-- **What a run returns.**  A run returns a list of tokens exactly when they tile the
whole source, each is a literal of its kind, and none is carried on by what follows it. -/
theorem lex_eq_ok_iff (source : Text) (tokens : List Token) :
    lex source = .ok tokens ↔
      Tiling source 0 source.length tokens ∧ ∀ t ∈ tokens, t.IsLexemeOf source := by
  rw [lex_eq_ok_iff_scan]
  constructor
  · intro h
    have htiling := h.tiling (List.append_nil source).symm
    rwa [Nat.zero_add] at htiling
  · rintro ⟨htiling, hlexemes⟩
    have hscan := htiling.scan hlexemes (Nat.zero_le _)
    rwa [List.drop_zero, Nat.sub_zero, List.take_length, List.drop_length] at hscan

/-- **Where a run fails.**  A run fails exactly when its tokens tile the source, as they do
on success, up to an index where a literal starts that breaks off; fault and index are
those of the break. -/
theorem lex_eq_error_iff (source : Text) (f : Failure) :
    lex source = .error f ↔ ∃ s i, s < source.length ∧
      (Tiling source 0 s f.tokens ∧ ∀ t ∈ f.tokens, t.IsLexemeOf source) ∧
        Breaks f.fault i (source.drop s) ∧ f.index = s + i := by
  rw [lex_eq_error_iff_scan]
  constructor
  · rintro ⟨text, rest, i, rfl, hscan, hbreak, hindex⟩
    have htiling := hscan.tiling rfl
    rw [Nat.zero_add] at htiling
    obtain ⟨c, tail, rfl, -⟩ := hbreak.exists_cons
    refine ⟨text.length, i, ?_, htiling, by rwa [List.drop_left], hindex⟩
    rw [List.length_append, List.length_cons]
    omega
  · rintro ⟨s, i, hs, ⟨htiling, hlexemes⟩, hbreak, hindex⟩
    have hscan := htiling.scan hlexemes (Nat.zero_le s)
    rw [List.drop_zero, Nat.sub_zero] at hscan
    refine ⟨source.take s, source.drop s, i, (List.take_append_drop s source).symm, hscan, hbreak,
      ?_⟩
    rw [hindex, List.length_take, Nat.min_eq_left (Nat.le_of_lt hs)]

end Lexis
