/-
# Restarting at a boundary

A run remembers nothing of what lies before the token it reads.  So it goes on from the end
of a path as a run does that starts there, apart from the tokens read before and the indices
(`Scan.lex_append`).  Read the other way round, a run may be started anew at every index that
no token straddles: it finds the tokens that are left, at indices counted from there
(`lex_drop`).
-/

import Lexis.Proofs.Scan

namespace Lexis

/-- The token, so many characters further on. -/
def Token.shift (d : Int) (t : Token) : Token := { t with index := t.index + d }

theorem Token.shift_shift (d e : Int) (t : Token) : (t.shift d).shift e = t.shift (d + e) := by
  simp only [shift, Int.add_assoc]

theorem Token.shift_zero (t : Token) : t.shift 0 = t := by
  simp only [shift, Int.add_zero]

/-- A path may be walked further on. -/
theorem Scan.shift {n : Nat} {text rest : Text} {tokens : List Token}
    (h : Scan n text tokens rest) (d : Nat) :
    Scan (n + d) text (tokens.map (Token.shift d)) rest := by
  induction h with
  | done => exact .done
  | @white n c text tokens rest hc _ ih =>
    rw [Nat.add_right_comm] at ih
    exact .white hc ih
  | @token n kind literal text tokens rest h hstop _ ih =>
    rw [Nat.add_right_comm] at ih
    exact .token h hstop ih

/-! ## Runs that go on -/

/-- What a run comes to: all tokens, or a failure with the tokens before it. -/
abbrev Run := Except Failure (List Token)

namespace Run

/-- The tokens read, also those read before a failure. -/
def tokens : Run → List Token
  | .ok tokens => tokens
  | .error f => f.tokens

/-- The run, if it starts at index `n` and some tokens were read before. -/
def after (before : List Token) (n : Nat) : Run → Run
  | .ok tokens => .ok (before ++ tokens.map (Token.shift n))
  | .error f => .error ⟨f.fault, f.index + n, before ++ f.tokens.map (Token.shift n)⟩

/-- The tokens that do not start before index `p`, at indices counted from `p`. -/
def tokensFrom (p : Nat) (tokens : List Token) : List Token :=
  (tokens.filter fun t => (p : Int) ≤ t.index).map (Token.shift (-p))

/-- The run without the tokens that start before index `p`, every index lowered by `p`. -/
def restart (p : Nat) : Run → Run
  | .ok tokens => .ok (tokensFrom p tokens)
  | .error f => .error ⟨f.fault, f.index - p, tokensFrom p f.tokens⟩

theorem tokens_after (before : List Token) (n : Nat) (run : Run) :
    (run.after before n).tokens = before ++ run.tokens.map (Token.shift n) := by
  cases run <;> rfl

/-- Tokens that were moved on by `p` are found again from `p` on. -/
theorem tokensFrom_append {p : Nat} {before later : List Token}
    (hbefore : ∀ t ∈ before, t.index < p) (hlater : ∀ t ∈ later, 0 ≤ t.index) :
    tokensFrom p (before ++ later.map (Token.shift p)) = later := by
  have hnone : (before.filter fun t => (p : Int) ≤ t.index) = [] :=
    List.filter_eq_nil_iff.mpr fun t ht => by
      have := hbefore t ht
      rw [decide_eq_true_iff]
      omega
  have hall : ((later.map (Token.shift p)).filter fun t => (p : Int) ≤ t.index) =
      later.map (Token.shift p) :=
    List.filter_eq_self.mpr fun t ht => by
      obtain ⟨u, hu, rfl⟩ := List.mem_map.mp ht
      have := hlater u hu
      simp only [Token.shift]
      exact decide_eq_true (by omega)
  have hback : Token.shift (-p) ∘ Token.shift p = id := funext fun t => by
    rw [Function.comp_apply, Token.shift_shift, Int.add_right_neg, Token.shift_zero, id]
  rw [tokensFrom, List.filter_append, hnone, hall, List.nil_append, List.map_map, hback,
    List.map_id]

/-- Restarting takes back what was read before. -/
theorem restart_after {p : Nat} {before : List Token} {run : Run}
    (hbefore : ∀ t ∈ before, t.index < p) (hrun : ∀ t ∈ run.tokens, 0 ≤ t.index) :
    (run.after before p).restart p = run := by
  cases run with
  | ok tokens => exact congrArg Except.ok (tokensFrom_append hbefore hrun)
  | error f =>
    have htokens : tokensFrom p (before ++ f.tokens.map (Token.shift p)) = f.tokens :=
      tokensFrom_append hbefore hrun
    rw [after, restart, htokens, Nat.add_sub_cancel]

/-- A run that goes on at an index does not fail before it. -/
theorem le_index_of_after {n : Nat} {before : List Token} {run : Run} {f : Failure}
    (h : run.after before n = .error f) : n ≤ f.index := by
  cases run with
  | ok tokens => cases h
  | error g =>
    cases h
    exact Nat.le_add_left n g.index

end Run

/-- **A run goes on as if it started where it is.** -/
theorem Scan.lex_append {text rest : Text} {tokens : List Token}
    (h : Scan 0 text tokens rest) :
    lex (text ++ rest) = Run.after tokens text.length (lex rest) := by
  obtain ⟨part, found, tail, rfl, hscan, hend⟩ := exists_scan 0 rest
  have hpath : Scan 0 (text ++ part) (tokens ++ found.map (Token.shift text.length)) tail :=
    h.append (hscan.shift text.length)
  rw [← List.append_assoc]
  rcases hend with rfl | ⟨fault, i, hbreak⟩
  · rw [List.append_nil, List.append_nil, lex_eq_ok_of_scan hpath, lex_eq_ok_of_scan hscan]
    rfl
  · rw [lex_eq_error_of_scan hpath hbreak, lex_eq_error_of_scan hscan hbreak, Run.after,
      List.length_append, Nat.add_assoc, Nat.add_comm]

/-- What a path passes is read, whatever comes of the rest. -/
theorem Scan.prefix_tokens {text rest : Text} {tokens : List Token}
    (h : Scan 0 text tokens rest) : tokens <+: Run.tokens (lex (text ++ rest)) := by
  rw [h.lex_append, Run.tokens_after]
  exact List.prefix_append tokens _

/-- The indices of a run are indices of its source. -/
theorem index_nonneg_of_mem_tokens {source : Text} {t : Token}
    (ht : t ∈ Run.tokens (lex source)) : 0 ≤ t.index := by
  cases hlex : lex source with
  | ok tokens =>
    rw [hlex] at ht
    exact (lex_eq_ok_iff_scan.mp hlex).le_index t ht
  | error f =>
    rw [hlex] at ht
    obtain ⟨text, rest, i, -, hscan, -⟩ := lex_eq_error_iff_scan.mp hlex
    exact hscan.le_index t ht

/-! ## Boundaries -/

/-- No token lies on both sides of index `p`. -/
def IsBoundary (tokens : List Token) (p : Nat) : Prop :=
  ∀ t ∈ tokens, ¬(t.index < p ∧ p < t.stop)

instance (tokens : List Token) (p : Nat) : Decidable (IsBoundary tokens p) :=
  inferInstanceAs (Decidable (∀ t ∈ tokens, ¬(t.index < p ∧ p < t.stop)))

/-- Nothing on a path starts before it. -/
theorem Scan.filter_lt {n : Nat} {text rest : Text} {tokens : List Token}
    (h : Scan n text tokens rest) : (tokens.filter fun t => t.index < (n : Int)) = [] :=
  List.filter_eq_nil_iff.mpr fun t ht => by
    have := h.le_index t ht
    rw [decide_eq_true_iff]
    omega

/-- A path may be broken off at any boundary. -/
theorem Scan.take {n k : Nat} {text rest : Text} {tokens : List Token}
    (h : Scan n text tokens rest) (hk : k ≤ text.length)
    (hboundary : IsBoundary tokens (n + k)) :
    Scan n (text.take k) (tokens.filter fun t => t.index < (n + k : Nat))
      (text.drop k ++ rest) := by
  induction h generalizing k with
  | done => rw [List.take_nil]; exact .done
  | @white n c text tokens rest hc hscan ih =>
    rcases k with _ | k
    · rw [Nat.add_zero, (Scan.white hc hscan).filter_lt]
      exact .done
    · rw [← Nat.add_assoc, Nat.add_right_comm] at hboundary ⊢
      exact .white hc (ih (Nat.le_of_succ_le_succ hk) hboundary)
  | @token n kind literal text tokens rest h hstop hscan ih =>
    rcases Nat.eq_zero_or_pos k with rfl | hpos
    · rw [Nat.add_zero, (Scan.token h hstop hscan).filter_lt]
      exact .done
    -- the first token starts before the boundary, so it ends before it too
    obtain ⟨hfirst, hboundary⟩ := List.forall_mem_cons.mp hboundary
    simp only [Token.stop] at hfirst
    obtain ⟨m, rfl⟩ := Nat.exists_eq_add_of_le (show literal.length ≤ k by omega)
    rw [List.length_append] at hk
    rw [← Nat.add_assoc] at hboundary ⊢
    have hstart : decide ((n : Int) < (n + literal.length + m : Nat)) = true :=
      decide_eq_true (by omega)
    rw [List.take_length_add_append, List.drop_length_add_append, List.filter_cons,
      if_pos hstart]
    refine .token h ?_ (ih (Nat.le_of_add_le_add_left hk) hboundary)
    rwa [← List.append_assoc, List.take_append_drop]

/-- Where a token may start after some tokens were read: the first character at or after the
end of the last one that is no white space. -/
def nextStart (tokens : List Token) (source : Text) : Nat :=
  let stop := (tokens.getLast?.map fun t => t.stop.toNat).getD 0
  stop + ((source.drop stop).takeWhile Glyph.isWhite).length

/-- The next token starts where the path over the tokens before it ends. -/
theorem Scan.nextStart_eq {text rest : Text} {tokens : List Token} (h : Scan 0 text tokens rest)
    (hrest : rest.head?.any Glyph.isWhite = false) :
    nextStart tokens (text ++ rest) = text.length := by
  have hgap : ∀ gap : Text, gap.all Glyph.isWhite = true →
      (gap ++ rest).takeWhile Glyph.isWhite = gap := fun gap hgap =>
    Recogniser.takeWhile_append_of_stop (List.all_eq_true.mp hgap) hrest
  cases h.ending with
  | white hwhite =>
    rw [nextStart, List.getLast?_nil, Option.map_none, Option.getD_none, List.drop_zero,
      hgap _ hwhite, Nat.zero_add]
  | @token i kind body literal gap before _ hindex _ _ hwhite =>
    have hstop : (Token.stop ⟨kind, literal, i⟩).toNat = (body ++ literal).length := by
      rw [List.length_append, hindex, Nat.zero_add]
      rfl
    rw [nextStart, List.getLast?_concat, Option.map_some, Option.getD_some, hstop,
      ← List.append_assoc, List.append_assoc _ gap, List.drop_left, hgap _ hwhite,
      ← List.length_append]

/-- A run passes every index that does not lie beyond the start of a token that cannot be
read. -/
theorem exists_scan_of_le_nextStart {source : Text} {p : Nat} (hp : p ≤ source.length)
    (hstart : ∀ f, lex source = .error f → p ≤ nextStart f.tokens source) :
    ∃ text rest, source = text ++ rest ∧ Scan 0 text (Run.tokens (lex source)) rest ∧
      p ≤ text.length := by
  cases hlex : lex source with
  | ok tokens =>
    exact ⟨source, [], (List.append_nil source).symm, lex_eq_ok_iff_scan.mp hlex, hp⟩
  | error f =>
    have hle := hstart f hlex
    obtain ⟨text, rest, i, rfl, hscan, hbreak, -⟩ := lex_eq_error_iff_scan.mp hlex
    obtain ⟨c, tail, rfl, hc⟩ := hbreak.exists_cons
    rw [hscan.nextStart_eq hc] at hle
    exact ⟨text, c :: tail, rfl, hscan, hle⟩

/-- **A run may be started anew at any boundary.**  At an index of the source that lies
inside no token, and not beyond the start of a token that cannot be read, the rest of the
source is read as it was read in the whole: the tokens that start there or later are found
again, and a failure is the same, with its message and hint.  Indices are counted from the
boundary; that of a failure does not lie before it. -/
theorem lex_drop {source : Text} {p : Nat} (hp : p ≤ source.length)
    (hboundary : IsBoundary (Run.tokens (lex source)) p)
    (hstart : ∀ f, lex source = .error f → p ≤ nextStart f.tokens source) :
    lex (source.drop p) = Run.restart p (lex source) ∧
      ∀ f, lex source = .error f → p ≤ f.index := by
  obtain ⟨text, rest, hsource, hscan, hle⟩ := exists_scan_of_le_nextStart hp hstart
  have hpath := hscan.take hle (by rwa [Nat.zero_add])
  have hafter := hpath.lex_append
  rw [← List.append_assoc, List.take_append_drop, List.length_take, Nat.min_eq_left hle,
    ← List.drop_append_of_le_length hle, ← hsource, Nat.zero_add] at hafter
  refine ⟨?_, fun f hf => Run.le_index_of_after (hafter.symm.trans hf)⟩
  have hearly : ∀ t ∈ (Run.tokens (lex source)).filter fun t => t.index < (p : Int),
      t.index < p := fun t ht => of_decide_eq_true (List.mem_filter.mp ht).2
  have hlater : ∀ t ∈ Run.tokens (lex (source.drop p)), 0 ≤ t.index :=
    fun t ht => index_nonneg_of_mem_tokens ht
  have hback := Run.restart_after hearly hlater
  rw [← hafter] at hback
  exact hback.symm

/-- A string right after an identifier, and a quote that is never closed: from the string on
the run is the same. -/
theorem lex_drop_openQuote :
    lex ['a', '"', 'b', '"', ' ', '\''] = .error ⟨.characterBody, 6,
        [⟨.identifier, ['a'], 0⟩, ⟨.string, ['"', 'b', '"'], 1⟩]⟩ ∧
      lex ['"', 'b', '"', ' ', '\''] = .error ⟨.characterBody, 5,
        [⟨.string, ['"', 'b', '"'], 0⟩]⟩ := by
  have hscan : Scan 0 (['a'] ++ (['"', 'b', '"'] ++ [' ']))
      [⟨.identifier, ['a'], 0⟩, ⟨.string, ['"', 'b', '"'], 1⟩] ['\''] :=
    .token (by decide) rfl (.token (by decide) rfl (.white rfl .done))
  have hlex : lex ['a', '"', 'b', '"', ' ', '\''] = .error ⟨.characterBody, 6,
      [⟨.identifier, ['a'], 0⟩, ⟨.string, ['"', 'b', '"'], 1⟩]⟩ :=
    lex_eq_error_of_scan hscan (.characterBody rfl)
  have hboundary : IsBoundary (Run.tokens (lex ['a', '"', 'b', '"', ' ', '\''])) 1 := by
    rw [hlex]
    decide
  have hrestart := (lex_drop (by decide) hboundary fun f hf => by
    rw [hlex] at hf
    cases hf
    decide).1
  rw [hlex] at hrestart
  exact ⟨hlex, hrestart⟩

end Lexis
