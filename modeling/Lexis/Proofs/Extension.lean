/-
# Extending a source

What becomes of the tokens of a source when text is added at its end (`lex_extend`).  All but
the last stay as they are.  The last one stays too if a quote closes it or if the source does
not end with it.  Otherwise what is added may carry it on:

| last token | may become |
| --- | --- |
| identifier, decimal, operator | a longer one of its kind |
| integer | a longer integer, a decimal, or a number that breaks off |

How a literal may be carried on is said by `Kind.Spells.goesOn_or_breaks`.  A source is cut at
the literal of its last token (`LastToken`), and what becomes of that token is what becomes of
its literal before all that follows.
-/

import Lexis.Proofs.Restart

namespace Lexis

/-! ## Literals -/

/-- With some of the text that follows it, or with none, the literal is a whole literal that
is not carried on.  It keeps its kind, but an integer may become a decimal. -/
def Kind.GoesOn (kind : Kind) (literal text : Text) : Prop :=
  ∃ kind' more rest, text = more ++ rest ∧ Kind.Spells kind' (literal ++ more) ∧
    kind'.Stops (literal ++ more) rest ∧ (kind' = kind ∨ kind = .integer ∧ kind' = .decimal)

/-- What can come of reading a number: it breaks off at a needless zero or after its point, or
it is whole. -/
inductive IsNumberVerdict : Except Fault Kind → Prop where
  | integer : IsNumberVerdict (.ok .integer)
  | decimal : IsNumberVerdict (.ok .decimal)
  | leadingZero : IsNumberVerdict (.error .leadingZero)
  | trailingPoint : IsNumberVerdict (.error .trailingPoint)

namespace Recogniser

theorem verdict_fraction (text : Text) : IsNumberVerdict (fraction text).verdict := by
  unfold fraction
  split
  · exact .trailingPoint
  · exact .decimal

theorem verdict_numberFrom (taken : Nat) (text : Text) :
    IsNumberVerdict (numberFrom taken text).verdict := by
  unfold numberFrom
  split
  · exact verdict_fraction _
  · exact .integer

theorem verdict_unsigned (text : Text) : IsNumberVerdict (unsigned text).verdict := by
  unfold unsigned
  split
  · exact .leadingZero
  · exact verdict_numberFrom _ _

theorem verdict_number (text : Text) : IsNumberVerdict (number text).verdict := by
  unfold number optionally
  split
  · exact verdict_unsigned _
  · split
    · exact verdict_unsigned _
    · exact verdict_unsigned _

end Recogniser

/-- Text after an integer leaves it, carries it on to an integer or a decimal, or makes a
number of it that breaks off. -/
theorem IsInteger.goesOn_or_breaks {literal : Text} (h : IsInteger literal) (text : Text) :
    Kind.integer.GoesOn literal text ∨ ∃ fault i, Breaks fault i (literal ++ text) ∧
      (fault = .leadingZero ∨ fault = .trailingPoint) := by
  obtain ⟨c, tail, rfl, hc⟩ := h.exists_cons
  have hwhite : Glyph.isWhite c = false :=
    CharClass.eq_of_accepts CharClass.accepts_numberStart hc rfl
  have hverdict : IsNumberVerdict (Recogniser.token (c :: tail ++ text)).verdict := by
    rw [List.cons_append, Recogniser.token_of_numberStart hc]
    exact Recogniser.verdict_number _
  rcases beginsWhole_or_beginsBroken hwhite (tail ++ text) with
    ⟨kind, literal, rest, heq, hspells, hstop⟩ | ⟨fault, i, hbreak⟩
  · rw [List.cons_append, heq, Recogniser.token_of_spells hspells hstop] at hverdict
    -- the whole literal is the longest, so the integer is the beginning of it
    have hbegins : c :: tail <+: literal ++ rest := heq ▸ List.prefix_append (c :: tail) text
    have hle := hspells.length_le hstop (.integer h) hbegins
    obtain ⟨more, rfl⟩ := List.prefix_of_prefix_length_le hbegins (List.prefix_append _ rest) hle
    have htext : text = more ++ rest := by
      rw [← List.cons_append, List.append_assoc] at heq
      exact List.append_cancel_left heq
    refine .inl ⟨kind, more, rest, htext, hspells, hstop, ?_⟩
    cases hverdict with
    | integer => exact .inl rfl
    | decimal => exact .inr ⟨rfl, rfl⟩
  · refine .inr ⟨fault, i, hbreak, ?_⟩
    rw [List.cons_append, Recogniser.token_of_breaks hbreak] at hverdict
    cases hverdict with
    | leadingZero => exact .inl rfl
    | trailingPoint => exact .inr rfl

namespace Kind

/-- A literal that the text does not carry on is left as it is. -/
theorem Spells.goesOn_of_stops {kind : Kind} {literal text : Text} (h : kind.Spells literal)
    (hstop : kind.Stops literal text) : kind.GoesOn literal text := by
  refine ⟨kind, [], text, rfl, ?_, ?_, .inl rfl⟩
  · rwa [List.append_nil]
  · rwa [List.append_nil]

/-- **Text after a literal carries it on or leaves it**, and only an integer may break off. -/
theorem Spells.goesOn_or_breaks {kind : Kind} {literal : Text} (h : kind.Spells literal)
    (text : Text) :
    kind.GoesOn literal text ∨ kind = .integer ∧ ∃ fault i, Breaks fault i (literal ++ text) ∧
      (fault = .leadingZero ∨ fault = .trailingPoint) := by
  have hstays : kind.Stops literal text → kind.GoesOn literal text := h.goesOn_of_stops
  cases h with
  | @identifier c part hc hpart =>
    obtain ⟨more, rest, rfl, hmore, hstop⟩ := exists_run Glyph.isIdentifierPart text
    exact .inl ⟨.identifier, more, rest, rfl,
      .identifier hc (List.forall_mem_append.mpr ⟨hpart, hmore⟩), hstop, .inl rfl⟩
  | integer h => exact (h.goesOn_or_breaks text).imp_right fun hbreak => ⟨rfl, hbreak⟩
  | @decimal whole fraction h hne hfraction =>
    obtain ⟨more, rest, rfl, hmore, hstop⟩ := exists_run Char.isDigit text
    refine .inl ⟨.decimal, more, rest, rfl, ?_, hstop, .inl rfl⟩
    rw [List.append_assoc, List.cons_append]
    exact .decimal h (List.append_ne_nil_of_left_ne_nil hne more)
      (List.forall_mem_append.mpr ⟨hfraction, hmore⟩)
  | character _ => exact .inl (hstays (stops_character _ _))
  | string _ => exact .inl (hstays (stops_string _ _))
  | pair _ => exact .inl (hstays (stops_pair _ _ _))
  | single h =>
    obtain ⟨more, rest, rfl, hspells, hstop⟩ := exists_operator h text
    exact .inl ⟨.operator, more, rest, rfl, hspells, hstop, .inl rfl⟩

end Kind

/-! ## Runs -/

/-- The second token stands where the first one stood, and carries it on or repeats it. -/
structure Token.IsCarriedOnBy (t u : Token) : Prop where
  index : u.index = t.index
  literal : t.literal <+: u.literal
  kind : u.kind = t.kind ∨ t.kind = .integer ∧ u.kind = .decimal

/-- The tokens read before a failure are read again, whatever text is added. -/
theorem prefix_tokens_of_lex_eq_error {source : Text} {f : Failure} (h : lex source = .error f)
    (x : Text) : f.tokens <+: Run.tokens (lex (source ++ x)) := by
  obtain ⟨text, rest, i, rfl, hscan, hbreak, -⟩ := lex_eq_error_iff_scan.mp h
  obtain ⟨c, tail, rfl, -⟩ := hbreak.exists_cons
  rw [← List.append_nil (c :: tail)] at hscan
  rw [List.append_assoc]
  exact (hscan.congr_append (List.cons_ne_nil c tail) x).prefix_tokens

/-- What the last token of a source cuts it into: `body` before its literal and the white space
`gap` after it. -/
structure LastToken (body gap : Text) (before : List Token) (t : Token) : Prop where
  index : t.index = body.length
  spells : t.kind.Spells t.literal
  gap_white : gap.all Glyph.isWhite = true
  /-- The tokens before it are read, whatever follows its literal. -/
  scan : ∀ rest, Scan 0 body before (t.literal ++ rest)

theorem exists_lastToken {source : Text} {before : List Token} {t : Token}
    (h : lex source = .ok (before ++ [t])) :
    ∃ body gap, source = body ++ (t.literal ++ gap) ∧ LastToken body gap before t := by
  have hscan := lex_eq_ok_iff_scan.mp h
  clear h
  generalize htokens : before ++ [t] = tokens at hscan
  cases hscan.ending with
  | white _ => cases List.append_ne_nil_of_right_ne_nil before (List.cons_ne_nil t []) htokens
  | @token i kind body literal gap _ hbody hindex hspells _ hgap =>
    obtain ⟨rfl, ht⟩ := List.append_inj' htokens rfl
    obtain rfl := List.singleton_inj.mp ht
    rw [Nat.zero_add] at hindex
    exact ⟨body, gap, rfl, congrArg _ hindex, hspells, hgap, hbody.congr_append hspells.ne_nil⟩

namespace LastToken

variable {body gap : Text} {before : List Token} {t : Token} {x : Text}

/-- The tokens before the last one are read again. -/
theorem before_prefix (h : LastToken body gap before t) (x : Text) :
    before <+: Run.tokens (lex (body ++ (t.literal ++ gap) ++ x)) := by
  rw [List.append_assoc, List.append_assoc]
  exact (h.scan _).prefix_tokens

/-- After them, a literal that begins as the last one did is read in its place. -/
theorem concat_prefix (h : LastToken body gap before t) {kind : Kind} {more rest : Text}
    (htext : gap ++ x = more ++ rest) (hspells : kind.Spells (t.literal ++ more))
    (hstop : kind.Stops (t.literal ++ more) rest) :
    before ++ [⟨kind, t.literal ++ more, t.index⟩] <+:
      Run.tokens (lex (body ++ (t.literal ++ gap) ++ x)) := by
  have hbody := h.scan (more ++ rest)
  rw [← List.append_assoc] at hbody
  have hread := (hbody.append (.literal hspells hstop)).prefix_tokens
  rwa [Nat.zero_add, ← h.index, List.append_assoc, List.append_assoc, ← htext,
    ← List.append_assoc t.literal, ← List.append_assoc] at hread

/-- A last token that does not go on with what follows is read again. -/
theorem prefix_of_stops (h : LastToken body gap before t)
    (hstop : t.kind.Stops t.literal (gap ++ x)) :
    before ++ [t] <+: Run.tokens (lex (body ++ (t.literal ++ gap) ++ x)) := by
  have hspells := h.spells
  rw [← List.append_nil t.literal] at hspells hstop
  have hread := h.concat_prefix (List.nil_append _).symm hspells hstop
  rwa [List.append_nil] at hread

/-- It does not go on if a quote closes it or white space follows it. -/
theorem stops (h : LastToken body gap before t) (hclosed : t.kind = .character ∨
      t.kind = .string ∨ t.stop < ((body ++ (t.literal ++ gap)).length : Int)) (x : Text) :
    t.kind.Stops t.literal (gap ++ x) := by
  rcases hclosed with hkind | hkind | hlt
  · exact hkind ▸ Kind.stops_character _ _
  · exact hkind ▸ Kind.stops_string _ _
  · have hne : gap ≠ [] := by
      rintro rfl
      rw [Token.stop, h.index, List.append_nil, List.length_append] at hlt
      omega
    exact Kind.stops_white_append hne h.gap_white t.kind t.literal x

/-- A last token that goes on is carried on in its place. -/
theorem carriedOn (h : LastToken body gap before t) (hgoes : t.kind.GoesOn t.literal (gap ++ x)) :
    ∃ u, before ++ [u] <+: Run.tokens (lex (body ++ (t.literal ++ gap) ++ x)) ∧
      t.IsCarriedOnBy u := by
  obtain ⟨kind, more, rest, htext, hspells, hstop, hkind⟩ := hgoes
  exact ⟨_, h.concat_prefix htext hspells hstop, rfl, List.prefix_append t.literal more, hkind⟩

/-- A last token that breaks off fails with the tokens before it. -/
theorem lex_of_breaks (h : LastToken body gap before t) {fault : Fault} {i : Nat}
    (hbreak : Breaks fault i (t.literal ++ (gap ++ x))) :
    lex (body ++ (t.literal ++ gap) ++ x) = .error ⟨fault, body.length + i, before⟩ := by
  rw [List.append_assoc, List.append_assoc]
  exact lex_eq_error_of_scan (h.scan _) hbreak

end LastToken

/-- **What is read stays read.**  If text is added to a source, the tokens read before a
failure stay, and so do all tokens of a source that can be read, but for the last one.  That
one stays if it is a character or a string or if the source goes on after it; otherwise it is
carried on in its place, as a token of its kind or from an integer to a decimal, or the run
fails at the number that the integer has become, with the tokens before it. -/
theorem lex_extend (source x : Text) :
    (∀ f, lex source = .error f → f.tokens <+: Run.tokens (lex (source ++ x))) ∧
      ∀ before t, lex source = .ok (before ++ [t]) →
        before <+: Run.tokens (lex (source ++ x)) ∧
          (t.kind = .character ∨ t.kind = .string ∨ t.stop < (source.length : Int) →
            before ++ [t] <+: Run.tokens (lex (source ++ x))) ∧
          ((∃ u, before ++ [u] <+: Run.tokens (lex (source ++ x)) ∧ t.IsCarriedOnBy u) ∨
            t.kind = .integer ∧ ∃ f, lex (source ++ x) = .error f ∧ f.tokens = before ∧
              (f.fault = .leadingZero ∨ f.fault = .trailingPoint)) := by
  refine ⟨fun f h => prefix_tokens_of_lex_eq_error h x, fun before t h => ?_⟩
  obtain ⟨body, gap, rfl, hlast⟩ := exists_lastToken h
  refine ⟨hlast.before_prefix x, fun hclosed => hlast.prefix_of_stops (hlast.stops hclosed x), ?_⟩
  rcases hlast.spells.goesOn_or_breaks (gap ++ x) with
    hgoes | ⟨hkind, fault, i, hbreak, hfault⟩
  · exact .inl (hlast.carriedOn hgoes)
  · exact .inr ⟨hkind, _, hlast.lex_of_breaks hbreak, rfl, hfault⟩

/-- A quote that what is added closes, a needless zero that what is added makes of an integer,
and the same zero kept apart by white space. -/
theorem lex_extend_zero :
    (lex ['x', ' ', '\''] = .error ⟨.characterBody, 3, [⟨.identifier, ['x'], 0⟩]⟩ ∧
      [⟨.identifier, ['x'], 0⟩] <+: Run.tokens (lex ['x', ' ', '\'', 'b', '\''])) ∧
    (lex ['-', '0'] = .ok [⟨.integer, ['-', '0'], 0⟩] ∧
      ((∃ u, [u] <+: Run.tokens (lex ['-', '0', '7']) ∧
          Token.IsCarriedOnBy ⟨.integer, ['-', '0'], 0⟩ u) ∨
        ∃ f, lex ['-', '0', '7'] = .error f ∧ f.tokens = [] ∧
          (f.fault = .leadingZero ∨ f.fault = .trailingPoint))) ∧
    (lex ['-', '0', ' '] = .ok [⟨.integer, ['-', '0'], 0⟩] ∧
      [⟨.integer, ['-', '0'], 0⟩] <+: Run.tokens (lex ['-', '0', ' ', '7'])) := by
  have hscan : Scan 0 (['x'] ++ [' ']) [⟨.identifier, ['x'], 0⟩] ['\''] :=
    .token (by decide) rfl (.white rfl .done)
  have hquote : lex ['x', ' ', '\''] = .error ⟨.characterBody, 3, [⟨.identifier, ['x'], 0⟩]⟩ :=
    lex_eq_error_of_scan hscan (.characterBody rfl)
  have hzero : lex ['-', '0'] = .ok ([] ++ [⟨.integer, ['-', '0'], 0⟩]) :=
    lex_eq_ok_of_scan (.literal (by decide) rfl)
  have hspace : Scan 0 (['-', '0'] ++ [' ']) [⟨.integer, ['-', '0'], 0⟩] [] :=
    .token (by decide) rfl (.white rfl .done)
  have happart : lex ['-', '0', ' '] = .ok ([] ++ [⟨.integer, ['-', '0'], 0⟩]) :=
    lex_eq_ok_of_scan hspace
  have hmended := (lex_extend _ ['b', '\'']).1 _ hquote
  have hcarried := ((lex_extend _ ['7']).2 _ _ hzero).2.2
  have hkept := ((lex_extend _ ['7']).2 _ _ happart).2.1 (.inr (.inr (by decide)))
  exact ⟨⟨hquote, hmended⟩, ⟨hzero, hcarried.imp_right And.right⟩, ⟨happart, hkept⟩⟩

end Lexis
