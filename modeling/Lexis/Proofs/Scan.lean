/-
# Runs

`Scan n text tokens rest`: on its way from index `n` a run takes `text`, which consists of
white space and of the literals of `tokens`, and then has `rest` ahead.  Each literal stops
in view of all that follows it, also of `rest`.

A run that starts with nothing pending follows such a path up to the end of the source or
up to a literal that breaks off (`Cursor.lexOnto_of_scan`), and every text has one
(`exists_scan`).  Hence the two characterisations of a run by its path, on success
(`lex_eq_ok_iff_scan`) and on failure (`lex_eq_error_iff_scan`).
-/

import Lexis.Cursor
import Lexis.Proofs.Reading

namespace Lexis

/-- A path over white space and literals, from an index on, with what is ahead at its end. -/
inductive Scan : Nat → Text → List Token → Text → Prop where
  | done {n : Nat} {rest : Text} : Scan n [] [] rest
  | white {n : Nat} {c : Char} {text : Text} {tokens : List Token} {rest : Text}
      (hc : Glyph.isWhite c = true) (hscan : Scan (n + 1) text tokens rest) :
      Scan n (c :: text) tokens rest
  | token {n : Nat} {kind : Kind} {literal text : Text} {tokens : List Token} {rest : Text}
      (h : kind.Spells literal) (hstop : kind.Stops literal (text ++ rest))
      (hscan : Scan (n + literal.length) text tokens rest) :
      Scan n (literal ++ text) (⟨kind, literal, n⟩ :: tokens) rest

namespace Scan

variable {n : Nat} {text : Text} {tokens : List Token} {rest : Text}

/-- **A path looks one character ahead of its end.**  What follows beyond that character
may be changed. -/
theorem congr_head (h : Scan n text tokens rest) {rest' : Text} (hhead : rest.head? = rest'.head?) :
    Scan n text tokens rest' := by
  induction h with
  | done => exact .done
  | white hc _ ih => exact .white hc (ih hhead)
  | token h hstop _ ih =>
    refine .token h ?_ (ih hhead)
    rw [Kind.Stops, List.head?_append] at hstop ⊢
    rwa [← hhead]

/-- What follows a text that is not empty may be changed. -/
theorem congr_append {part : Text} (hpart : part ≠ []) (h : Scan n text tokens (part ++ rest))
    (rest' : Text) : Scan n text tokens (part ++ rest') := by
  obtain ⟨c, tail, rfl⟩ := List.exists_cons_of_ne_nil hpart
  exact h.congr_head rfl

/-- A path over one literal. -/
theorem literal {kind : Kind} {literal : Text} (h : kind.Spells literal)
    (hstop : kind.Stops literal rest) : Scan n literal [⟨kind, literal, n⟩] rest := by
  have hscan : Scan n (literal ++ []) [⟨kind, literal, n⟩] rest := .token h hstop .done
  rwa [List.append_nil] at hscan

/-- White space in front. -/
theorem white_append {gap : Text} (hgap : gap.all Glyph.isWhite = true)
    (h : Scan (n + gap.length) text tokens rest) : Scan n (gap ++ text) tokens rest := by
  induction gap generalizing n with
  | nil => exact h
  | cons c gap ih =>
    rw [List.all_cons, Bool.and_eq_true] at hgap
    refine .white hgap.1 (ih hgap.2 ?_)
    rwa [List.length_cons, Nat.add_comm gap.length, ← Nat.add_assoc] at h

/-- A path and one that goes on from its end. -/
theorem append {text' : Text} {tokens' : List Token} (h : Scan n text tokens (text' ++ rest))
    (h' : Scan (n + text.length) text' tokens' rest) :
    Scan n (text ++ text') (tokens ++ tokens') rest := by
  generalize hahead : text' ++ rest = ahead at h
  induction h with
  | done => exact h'
  | white hc _ ih =>
    refine .white hc (ih ?_ hahead)
    rwa [List.length_cons, Nat.add_comm _ 1, ← Nat.add_assoc] at h'
  | token h hstop _ ih =>
    rw [List.append_assoc, List.cons_append]
    refine .token h ?_ (ih ?_ hahead)
    · rwa [List.append_assoc, hahead]
    · rwa [List.length_append, ← Nat.add_assoc] at h'

/-- The tokens of a path are literals of their kinds. -/
theorem spells (h : Scan n text tokens rest) : ∀ t ∈ tokens, t.kind.Spells t.literal := by
  induction h with
  | done => exact fun t ht => absurd ht List.not_mem_nil
  | white _ _ ih => exact ih
  | token h _ _ ih => exact List.forall_mem_cons.mpr ⟨h, ih⟩

/-- The tokens of a path do not lie before it. -/
theorem le_index (h : Scan n text tokens rest) : ∀ t ∈ tokens, (n : Int) ≤ t.index := by
  induction h with
  | done => exact fun t ht => absurd ht List.not_mem_nil
  | white _ _ ih =>
    intro t ht
    have := ih t ht
    omega
  | token _ _ _ ih =>
    refine List.forall_mem_cons.mpr ⟨Int.le_refl _, fun t ht => ?_⟩
    have := ih t ht
    omega

end Scan

/-- A path told from its end: white space alone, or a last token with the path before it and
the white space after it. -/
inductive Scan.Ending (n : Nat) (rest : Text) : Text → List Token → Prop where
  | white {gap : Text} (hgap : gap.all Glyph.isWhite = true) : Ending n rest gap []
  | token {i : Nat} {kind : Kind} {body literal gap : Text} {before : List Token}
      (hbody : Scan n body before (literal ++ (gap ++ rest))) (hindex : i = n + body.length)
      (h : kind.Spells literal) (hstop : kind.Stops literal (gap ++ rest))
      (hgap : gap.all Glyph.isWhite = true) :
      Ending n rest (body ++ (literal ++ gap)) (before ++ [⟨kind, literal, i⟩])

namespace Scan

variable {n : Nat} {text : Text} {tokens : List Token} {rest : Text}

/-- Every path can be told from its end. -/
theorem ending (h : Scan n text tokens rest) : Ending n rest text tokens := by
  induction h with
  | done => exact .white rfl
  | white hc _ ih =>
    cases ih with
    | white hgap => exact .white (List.all_cons.trans (Bool.and_eq_true_iff.mpr ⟨hc, hgap⟩))
    | token hbody hindex h hstop hgap =>
      rw [← List.cons_append]
      refine .token (.white hc hbody) ?_ h hstop hgap
      rw [hindex, List.length_cons]
      omega
  | token h hstop _ ih =>
    cases ih with
    | white hgap =>
      rw [← List.nil_append (_ ++ _), ← List.nil_append [_]]
      exact .token .done rfl h hstop hgap
    | token hbody hindex hlast hlaststop hgap =>
      rw [List.append_assoc, List.append_assoc] at hstop
      rw [← List.append_assoc, ← List.cons_append]
      refine .token (.token h hstop hbody) ?_ hlast hlaststop hgap
      rw [hindex, List.length_append]
      omega

/-- What is told from its end is a path. -/
theorem Ending.scan (h : Ending n rest text tokens) : Scan n text tokens rest := by
  have hwhite : ∀ {m : Nat} {gap : Text}, gap.all Glyph.isWhite = true → Scan m gap [] rest := by
    intro m gap hgap
    have hscan : Scan m (gap ++ []) [] rest := .white_append hgap .done
    rwa [List.append_nil] at hscan
  cases h with
  | white hgap => exact hwhite hgap
  | token hbody hindex h hstop hgap =>
    subst hindex
    rw [← List.append_assoc] at hbody
    exact hbody.append (.token h hstop (hwhite hgap))

end Scan

/-- Every text is a path and what is ahead at its end: nothing, or a literal that breaks
off. -/
theorem exists_scan (n : Nat) (source : Text) : ∃ text tokens rest, source = text ++ rest ∧
    Scan n text tokens rest ∧ (rest = [] ∨ BeginsBroken rest) := by
  -- a literal may be of any length, so the induction is on how much is ahead
  induction hlen : source.length using Nat.strongRecOn generalizing n source with
  | ind m ih =>
    subst hlen
    rcases source with _ | ⟨c, source⟩
    · exact ⟨[], [], [], rfl, .done, .inl rfl⟩
    cases hc : Glyph.isWhite c with
    | true =>
      obtain ⟨text, tokens, rest, rfl, hscan, hrest⟩ :=
        ih source.length (Nat.lt_succ_self _) (n + 1) source rfl
      exact ⟨c :: text, tokens, rest, rfl, .white hc hscan, hrest⟩
    | false =>
      rcases beginsWhole_or_beginsBroken hc source with
        ⟨kind, literal, tail, heq, h, hstop⟩ | hbroken
      · have hlt : tail.length < (c :: source).length := by
          have hpos := h.length_pos
          rw [heq, List.length_append]
          omega
        obtain ⟨text, tokens, rest, rfl, hscan, hrest⟩ :=
          ih tail.length hlt (n + literal.length) tail rfl
        refine ⟨literal ++ text, _, rest, ?_, .token h hstop hscan, hrest⟩
        rw [heq, List.append_assoc]
      · exact ⟨[], [], c :: source, rfl, .done, .inr hbroken⟩

namespace Cursor

/-- The cursor at an index of a source, with nothing pending. -/
def freshAt (source : Text) (n : Nat) : Cursor := ⟨source, n, 0, source.drop n, rfl⟩

@[simp] theorem ahead_freshAt (source : Text) (n : Nat) :
    (freshAt source n).ahead = source.drop n := rfl

@[simp] theorem position_freshAt (source : Text) (n : Nat) : (freshAt source n).position = n := rfl

/-- Giving up what was taken leaves nothing pending. -/
theorem skip_take_freshAt (source : Text) (n k : Nat) :
    ((freshAt source n).take k).skip = freshAt source (n + k) :=
  ext rfl (by simp [skip, freshAt, take, position]) rfl

variable {source rest : Text} {n : Nat}

/-- A literal ahead becomes a token. -/
theorem token_of_spells {kind : Kind} {literal : Text} (hahead : source.drop n = literal ++ rest)
    (h : kind.Spells literal) (hstop : kind.Stops literal rest) :
    (freshAt source n).token = (.ok ⟨kind, literal, n⟩, freshAt source (n + literal.length)) := by
  have hpending : ((freshAt source n).take literal.length).pending = literal := by
    simp [pending, take, freshAt, hahead]
  simp only [token, recognise, ahead_freshAt, hahead, Recogniser.token_of_spells h hstop, emit,
    hpending, skip_take_freshAt]
  rfl

/-- A literal ahead that breaks off is a failure; what it took stays pending. -/
theorem token_of_breaks {fault : Fault} {i : Nat} (h : Breaks fault i (source.drop n)) :
    (freshAt source n).token =
      (.error ⟨fault, n + i, []⟩, (freshAt source n).take (i - fault.offset)) := by
  have hoffset : fault.offset ≤ i := h.offset_le
  have hindex : n + (i - fault.offset) + fault.offset = n + i := by omega
  simp only [token, recognise, ahead_freshAt, Recogniser.token_of_breaks h, failure, position_take,
    position_freshAt, hindex]

/-- **A run follows its path.** -/
theorem lexOnto_of_scan {text : Text} {tokens : List Token} (h : Scan n text tokens rest)
    (hahead : source.drop n = text ++ rest) (read : List Token) :
    (freshAt source n).lexOnto read =
      (freshAt source (n + text.length)).lexOnto (tokens.reverse ++ read) := by
  induction h generalizing read with
  | done => rfl
  | @white n c text tokens rest hc _ ih =>
    have hnext : source.drop (n + 1) = text ++ rest := by
      rw [← List.drop_drop, hahead, List.cons_append, List.drop_one, List.tail_cons]
    have hskip : (freshAt source n).advance.skip = freshAt source (n + 1) :=
      skip_take_freshAt source n 1
    have hcons : (freshAt source n).ahead = c :: (text ++ rest) := hahead
    rw [lexOnto_of_whitespace hcons hc, hskip, ih hnext, List.length_cons, Nat.add_assoc,
      Nat.add_comm 1]
  | @token n kind literal text tokens rest h hstop _ ih =>
    rw [List.append_assoc] at hahead
    have hnext : source.drop (n + literal.length) = text ++ rest := by
      rw [← List.drop_drop, hahead, List.drop_left]
    obtain ⟨c, tail, hliteral, hc⟩ := h.exists_cons
    have hcons : (freshAt source n).ahead = c :: (tail ++ (text ++ rest)) := by
      rw [ahead_freshAt, hahead, hliteral, List.cons_append]
    rw [lexOnto_of_token_ok hcons hc (token_of_spells hahead h hstop), ih hnext,
      List.length_append, Nat.add_assoc, List.reverse_cons, List.append_assoc,
      List.singleton_append]

/-- A path to the end of the source is a run that succeeds. -/
theorem lex_of_scan {tokens : List Token} (h : Scan n (source.drop n) tokens []) :
    (freshAt source n).lex = (.ok tokens, freshAt source (n + (source.drop n).length)) := by
  have hend : (freshAt source (n + (source.drop n).length)).ahead = [] := by
    rw [ahead_freshAt, ← List.drop_drop, List.drop_length]
  rw [lex, lexOnto_of_scan h (List.append_nil _).symm, lexOnto_of_ahead_eq_nil hend,
    List.append_nil, List.reverse_reverse]

/-- A path to a literal that breaks off is a run that fails there. -/
theorem lex_of_scan_of_breaks {text : Text} {tokens : List Token} {fault : Fault} {i : Nat}
    (h : Scan n text tokens rest) (hahead : source.drop n = text ++ rest)
    (hbreak : Breaks fault i rest) :
    (freshAt source n).lex = (.error ⟨fault, n + text.length + i, tokens⟩,
      (freshAt source (n + text.length)).take (i - fault.offset)) := by
  have hrest : source.drop (n + text.length) = rest := by
    rw [← List.drop_drop, hahead, List.drop_left]
  obtain ⟨c, tail, rfl, hc⟩ := hbreak.exists_cons
  have hcons : (freshAt source (n + text.length)).ahead = c :: tail := hrest
  rw [lex, lexOnto_of_scan h hahead,
    lexOnto_of_token_error hcons hc (token_of_breaks (hrest ▸ hbreak)), List.append_nil,
    List.reverse_reverse]

end Cursor

variable {source : Text}

theorem lex_eq_ok_of_scan {tokens : List Token} (h : Scan 0 source tokens []) :
    lex source = .ok tokens :=
  congrArg Prod.fst (Cursor.lex_of_scan h)

theorem lex_eq_error_of_scan {text rest : Text} {tokens : List Token} {fault : Fault} {i : Nat}
    (h : Scan 0 text tokens rest) (hbreak : Breaks fault i rest) :
    lex (text ++ rest) = .error ⟨fault, text.length + i, tokens⟩ := by
  have hrun := congrArg Prod.fst (Cursor.lex_of_scan_of_breaks h rfl hbreak)
  rwa [Nat.zero_add] at hrun

/-- **Success by paths.**  A run returns the tokens of a path through the whole source, and
of no other. -/
theorem lex_eq_ok_iff_scan {tokens : List Token} :
    lex source = .ok tokens ↔ Scan 0 source tokens [] := by
  refine ⟨fun h => ?_, lex_eq_ok_of_scan⟩
  obtain ⟨text, found, rest, rfl, hscan, rfl | ⟨fault, i, hbreak⟩⟩ := exists_scan 0 source
  · rw [List.append_nil] at h ⊢
    rw [lex_eq_ok_of_scan hscan] at h
    cases h
    exact hscan
  · rw [lex_eq_error_of_scan hscan hbreak] at h
    cases h

/-- **Failure by paths.**  A run fails with the tokens of a path to a literal that breaks
off, at the character where it does. -/
theorem lex_eq_error_iff_scan {f : Failure} :
    lex source = .error f ↔ ∃ text rest i, source = text ++ rest ∧
      Scan 0 text f.tokens rest ∧ Breaks f.fault i rest ∧ f.index = text.length + i := by
  constructor
  · intro h
    obtain ⟨text, found, rest, rfl, hscan, rfl | ⟨fault, i, hbreak⟩⟩ := exists_scan 0 source
    · rw [List.append_nil, lex_eq_ok_of_scan hscan] at h
      cases h
    · rw [lex_eq_error_of_scan hscan hbreak] at h
      cases h
      exact ⟨text, rest, i, rfl, hscan, hbreak, rfl⟩
  · rintro ⟨text, rest, i, rfl, hscan, hbreak, hindex⟩
    rw [lex_eq_error_of_scan hscan hbreak, ← hindex]

end Lexis
