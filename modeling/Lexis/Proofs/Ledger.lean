/-
# The ledger of a cursor

What became of every character that was taken, over any sequence of requests, also after
requests that failed.  A cursor closes its pending span in two ways only, by giving it up and
by making a token of it.  A `Ledger` is a cursor that enters each span when it is closed:

    ├ entry ┼ entry ┼───── entry ─────┼ pending │ ahead
    0                                 start     position

Keeping the ledger changes no answer and no cursor (`Ledger.erase_performAll`).  At any time
its entries and the pending span divide what lies before the cursor, without gap or overlap,
and the tokens entered are those of the answers (`performAll_accounts`).
-/

import Lexis.Cursor.Operation

namespace Lexis

/-! ## Spans -/

/-- The indices from `start` on and before `stop`. -/
structure Span where
  start : Nat
  stop : Nat
deriving DecidableEq, Repr

/-- Whether an index lies in a span. -/
def Span.holds (s : Span) (i : Nat) : Bool := s.start ≤ i && i < s.stop

/-- What a source holds in a span, which may reach beyond its end. -/
def Span.cut (s : Span) (source : Text) : Text := (source.drop s.start).take (s.stop - s.start)

/-- The spans follow one another from index `a` to index `b`: each starts where the one before
it stops. -/
inductive Covers : Nat → List Span → Nat → Prop where
  | nil {a : Nat} : Covers a [] a
  | cons {a m b : Nat} {spans : List Span} (hle : a ≤ m) (h : Covers m spans b) :
      Covers a (⟨a, m⟩ :: spans) b

namespace Covers

variable {a b c : Nat} {spans : List Span}

theorem concat (h : Covers a spans b) (hle : b ≤ c) : Covers a (spans ++ [⟨b, c⟩]) c := by
  induction h with
  | nil => exact .cons hle .nil
  | cons hfirst _ ih => exact .cons hfirst (ih hle)

theorem le (h : Covers a spans b) : a ≤ b := by
  induction h with
  | nil => exact Nat.le_refl _
  | cons hle _ ih => exact Nat.le_trans hle ih

theorem le_start (h : Covers a spans b) : ∀ s ∈ spans, a ≤ s.start := by
  induction h with
  | nil => exact fun s hs => absurd hs List.not_mem_nil
  | cons hle _ ih =>
    exact List.forall_mem_cons.mpr ⟨Nat.le_refl _, fun s hs => Nat.le_trans hle (ih s hs)⟩

/-- No span starts before an earlier one stops. -/
theorem pairwise (h : Covers a spans b) : spans.Pairwise fun s t => s.stop ≤ t.start := by
  induction h with
  | nil => exact .nil
  | cons _ h ih => exact List.pairwise_cons.mpr ⟨h.le_start, ih⟩

/-- An index between the ends lies in one span, and any other in none. -/
theorem countP_holds (h : Covers a spans b) (i : Nat) :
    spans.countP (·.holds i) = if a ≤ i ∧ i < b then 1 else 0 := by
  induction h with
  | nil => exact (if_neg fun h => Nat.not_lt.mpr h.1 h.2).symm
  | @cons a m b spans hle h ih =>
    have hend := h.le
    rw [List.countP_cons, ih]
    simp only [Span.holds, Bool.and_eq_true, decide_eq_true_eq]
    split <;> split <;> split <;> omega

end Covers

/-! ## Ledgers -/

/-- A span that was closed, with the token that was made of it, or with none if it was given
up. -/
structure Ledger.Entry extends Span where
  token : Option Token
deriving DecidableEq, Repr

/-- A cursor with the spans that it has closed, in the order in which it closed them. -/
structure Ledger where
  cursor : Cursor
  entries : List Ledger.Entry

/-- The span that no token holds yet. -/
def Cursor.pendingSpan (c : Cursor) : Span := ⟨c.start, c.position⟩

theorem Cursor.pending_eq_cut (c : Cursor) : c.pending = c.pendingSpan.cut c.source := by
  rw [Span.cut, pendingSpan, position, Nat.add_sub_cancel_left, ← c.remaining_eq, pending]

namespace Ledger

/-- The ledger at the start of a source. -/
def opening (source : Text) : Ledger := ⟨.ofSource source, []⟩

/-- The tokens entered. -/
def tokens (l : Ledger) : List Token := l.entries.filterMap Entry.token

/-- All spans of the ledger, the pending one last. -/
def spans (l : Ledger) : List Span := l.entries.map Entry.toSpan ++ [l.cursor.pendingSpan]

/-- Takes `n` characters. -/
def take (l : Ledger) (n : Nat) : Ledger := { l with cursor := l.cursor.take n }

/-- Gives up the pending span. -/
def skip (l : Ledger) : Ledger := ⟨l.cursor.skip, l.entries ++ [⟨l.cursor.pendingSpan, none⟩]⟩

/-- Makes a token of the pending span. -/
def emit (l : Ledger) (kind : Kind) : Token × Ledger :=
  let made := l.cursor.emit kind
  (made.1, ⟨made.2, l.entries ++ [⟨l.cursor.pendingSpan, some made.1⟩]⟩)

theorem tokens_skip (l : Ledger) : l.skip.tokens = l.tokens := by
  simp only [tokens, skip, List.filterMap_append, List.filterMap_cons, List.filterMap_nil,
    List.append_nil]

theorem tokens_emit (l : Ledger) (kind : Kind) :
    (l.emit kind).2.tokens = l.tokens ++ [(l.emit kind).1] := by
  simp only [tokens, emit, List.filterMap_append, List.filterMap_cons, List.filterMap_nil]

/-- Takes what a recogniser takes and makes a token of the pending span. -/
def recognise (l : Ledger) (recogniser : Recogniser Kind) : Except Failure Token × Ledger :=
  let reading := recogniser l.cursor.ahead
  let moved := l.take reading.taken
  match reading.verdict with
  | .ok kind => (.ok (moved.emit kind).1, (moved.emit kind).2)
  | .error fault => (.error (moved.cursor.failure fault), moved)

/-- Forgets the entries. -/
def erase {α : Type} (result : α × Ledger) : α × Cursor := (result.1, result.2.cursor)

theorem erase_recognise (l : Ledger) (recogniser : Recogniser Kind) :
    erase (l.recognise recogniser) = l.cursor.recognise recogniser := by
  unfold recognise Cursor.recognise
  rcases recogniser l.cursor.ahead with ⟨taken, fault | kind⟩
  · rfl
  · rfl

/-- Reads on to the end of the source, with the tokens read before, last first. -/
def lexOnto (read : List Token) (l : Ledger) : Except Failure (List Token) × Ledger :=
  match _hahead : l.cursor.ahead with
  | [] => (.ok read.reverse, l)
  | next :: _ =>
    if CharClass.whitespace.accepts next then lexOnto read (l.take 1).skip
    else
      match _htoken : l.recognise Recogniser.token with
      | (.ok t, l') => lexOnto (t :: read) l'
      | (.error failure, l') => (.error { failure with tokens := read.reverse }, l')
termination_by l.cursor.ahead.length
decreasing_by
  · simp [take, skip, _hahead]
  · have herase := erase_recognise l Recogniser.token
    rw [_htoken] at herase
    exact Cursor.length_ahead_token (by simp [_hahead]) herase.symm

/-- Reading on is the same with and without a ledger. -/
theorem erase_lexOnto (read : List Token) (l : Ledger) :
    erase (l.lexOnto read) = l.cursor.lexOnto read := by
  fun_induction lexOnto read l with
  | case1 read l hahead => exact (Cursor.lexOnto_of_ahead_eq_nil hahead).symm
  | case2 read l next rest hahead hwhite ih =>
    exact ih.trans (Cursor.lexOnto_of_whitespace hahead hwhite).symm
  | case3 read l next rest hahead hwhite t l' htoken ih =>
    have herase := erase_recognise l Recogniser.token
    rw [htoken] at herase
    exact ih.trans
      (Cursor.lexOnto_of_token_ok hahead (Bool.eq_false_iff.mpr hwhite) herase.symm).symm
  | case4 read l next rest hahead hwhite failure l' htoken =>
    have herase := erase_recognise l Recogniser.token
    rw [htoken] at herase
    exact (Cursor.lexOnto_of_token_error hahead (Bool.eq_false_iff.mpr hwhite) herase.symm).symm

/-- Carries out one request. -/
def perform (l : Ledger) : Operation → Answer × Ledger
  | .skip => (.done, l.skip)
  | .emit kind => (l.emit kind).map .token id
  | .recognise rule => (l.recognise rule.recogniser).map (.ofExcept .token) id
  | .lex => (l.lexOnto []).map (.ofExcept .tokens) id
  -- no other request closes a span
  | op => (l.cursor.perform op).map id fun next => { l with cursor := next }

/-- Carries out requests one after another, with the ledger that each leaves. -/
def performAll (l : Ledger) : List Operation → List (Answer × Ledger)
  | [] => []
  | op :: ops =>
    let answered := l.perform op
    answered :: answered.2.performAll ops

theorem erase_perform (l : Ledger) (op : Operation) :
    erase (l.perform op) = l.cursor.perform op := by
  cases op with
  | recognise rule =>
    have herase := erase_recognise l rule.recogniser
    exact congrArg (Prod.map (Answer.ofExcept .token) id) herase
  | lex => exact congrArg (Prod.map (Answer.ofExcept .tokens) id) (erase_lexOnto [] l)
  | _ => rfl

/-- **Keeping a ledger changes nothing.**  The answers and the cursors are those of the cursor
alone. -/
theorem erase_performAll (l : Ledger) (ops : List Operation) :
    (l.performAll ops).map erase = l.cursor.performAll ops := by
  induction ops generalizing l with
  | nil => rfl
  | cons op ops ih =>
    have hstep := erase_perform l op
    rw [performAll, Cursor.performAll, List.map_cons, ih, ← hstep]
    rfl

/-! ## Steps -/

/-- From one ledger to another by taking characters, giving up spans and making tokens, with
the tokens made on the way. -/
inductive Steps : Ledger → List Token → Ledger → Prop where
  | refl {l : Ledger} : Steps l [] l
  | take {l l' : Ledger} {made : List Token} (n : Nat) (h : Steps (l.take n) made l') :
      Steps l made l'
  | skip {l l' : Ledger} {made : List Token} (h : Steps l.skip made l') : Steps l made l'
  | emit {l l' : Ledger} {made : List Token} (kind : Kind)
      (h : Steps (l.emit kind).2 made l') : Steps l ((l.emit kind).1 :: made) l'

end Ledger

/-- The tokens that an answer brings, also with a failure. -/
def Answer.made : Answer → List Token
  | .token t => [t]
  | .tokens ts => ts
  | .failed f => f.tokens
  | .done | .flag _ | .char _ | .absent _ => []

namespace Ledger
namespace Steps

variable {l l' l'' : Ledger} {made made' : List Token} {recogniser : Recogniser Kind}

theorem trans (h : Steps l made l') (h' : Steps l' made' l'') : Steps l (made ++ made') l'' := by
  induction h with
  | refl => exact h'
  | take n _ ih => exact .take n (ih h')
  | skip _ ih => exact .skip (ih h')
  | emit kind _ ih => exact .emit kind (ih h')

/-- A recogniser that succeeds makes one token. -/
theorem of_recognise_ok {t : Token} (h : l.recognise recogniser = (.ok t, l')) :
    Steps l [t] l' := by
  simp only [recognise] at h
  split at h
  · cases h
    exact .take _ (.emit _ .refl)
  · cases h

/-- A recogniser that fails takes what it takes and makes no token. -/
theorem of_recognise_error {f : Failure} (h : l.recognise recogniser = (.error f, l')) :
    f.tokens = [] ∧ Steps l [] l' := by
  simp only [recognise] at h
  split at h
  · cases h
  · cases h
    exact ⟨rfl, .take _ .refl⟩

/-- Reading on makes the tokens that it adds to those read before. -/
theorem of_lexOnto (read : List Token) (l : Ledger) :
    ∃ made, (Answer.ofExcept .tokens (l.lexOnto read).1).made = read.reverse ++ made ∧
      Steps l made (l.lexOnto read).2 := by
  fun_induction lexOnto read l with
  | case1 read l hahead => exact ⟨[], (List.append_nil _).symm, .refl⟩
  | case2 read l next rest hahead hwhite ih =>
    obtain ⟨made, htokens, hsteps⟩ := ih
    exact ⟨made, htokens, .take 1 (.skip hsteps)⟩
  | case3 read l next rest hahead hwhite t l' htoken ih =>
    obtain ⟨made, htokens, hsteps⟩ := ih
    rw [List.reverse_cons, List.append_assoc] at htokens
    exact ⟨t :: made, htokens, (of_recognise_ok htoken).trans hsteps⟩
  | case4 read l next rest hahead hwhite failure l' htoken =>
    exact ⟨[], (List.append_nil _).symm, (of_recognise_error htoken).2⟩

/-- **Every request is a sequence of steps**, and the tokens of its answer are those made on
the way. -/
theorem of_perform (l : Ledger) (op : Operation) :
    Steps l (l.perform op).1.made (l.perform op).2 := by
  cases op with
  | has _ | peek _ => exact .refl
  | get offset =>
    have hnone : (Answer.ofChar (l.cursor.get offset)).made = [] := by
      cases l.cursor.get offset <;> rfl
    exact hnone ▸ .refl
  | advance => exact .take 1 .refl
  | skip => exact .skip .refl
  | emit kind => exact .emit kind .refl
  | accept pattern =>
    simp only [perform, Cursor.perform, Cursor.accept]
    split
    · exact .take pattern.length .refl
    · exact .refl
  | recognise rule =>
    simp only [perform]
    cases hresult : l.recognise rule.recogniser with
    | mk result l' =>
    cases result with
    | ok t => exact of_recognise_ok hresult
    | error f =>
      obtain ⟨htokens, hsteps⟩ := of_recognise_error hresult
      show Steps l f.tokens l'
      rwa [htokens]
  | escape =>
    simp only [perform, Cursor.perform, Cursor.escape]
    split
    · exact .take _ .refl
    · exact .take _ .refl
  | lex =>
    obtain ⟨made, htokens, hsteps⟩ := of_lexOnto [] l
    rw [List.reverse_nil, List.nil_append] at htokens
    exact htokens ▸ hsteps

end Steps

/-- Whatever requests were carried out, the ledger was reached by steps, and the tokens made
on the way are those of the answers so far. -/
theorem steps_of_performAll {l : Ledger} {ops : List Operation}
    {before after : List (Answer × Ledger)} {s : Answer × Ledger}
    (h : l.performAll ops = before ++ s :: after) :
    Steps l ((before ++ [s]).flatMap fun s => s.1.made) s.2 := by
  induction ops generalizing l before with
  | nil => cases List.append_ne_nil_of_right_ne_nil before (List.cons_ne_nil s after) h.symm
  | cons op ops ih =>
    have hfirst := Steps.of_perform l op
    rw [performAll] at h
    rcases before with _ | ⟨p, before⟩
    · obtain ⟨rfl, -⟩ := List.cons.inj h
      rwa [List.nil_append, List.flatMap_singleton]
    · obtain ⟨rfl, hrest⟩ := List.cons.inj h
      rw [List.cons_append, List.flatMap_cons]
      exact hfirst.trans (ih hrest)

/-! ## What steps preserve -/

/-- The entries divide what lies before the pending span, and each token entered is what the
source holds in its span. -/
structure Balanced (source : Text) (l : Ledger) : Prop where
  source_eq : l.cursor.source = source
  covers : Covers 0 (l.entries.map Entry.toSpan) l.cursor.start
  cut : ∀ e ∈ l.entries, ∀ t, e.token = some t →
    t.index = e.start ∧ t.literal = e.toSpan.cut source

theorem balanced_opening (source : Text) : (opening source).Balanced source :=
  ⟨rfl, .nil, fun _ he => absurd he List.not_mem_nil⟩

namespace Balanced

variable {source : Text} {l : Ledger}

/-- Closing the pending span keeps the balance. -/
theorem close (h : l.Balanced source) {token : Option Token}
    (htoken : ∀ t, token = some t →
      t.index = l.cursor.start ∧ t.literal = l.cursor.pendingSpan.cut source) :
    Balanced source ⟨l.cursor.skip, l.entries ++ [⟨l.cursor.pendingSpan, token⟩]⟩ where
  source_eq := h.source_eq
  covers := by
    rw [List.map_append]
    exact h.covers.concat (Nat.le_add_right _ _)
  cut := List.forall_mem_append.mpr ⟨h.cut, List.forall_mem_singleton.mpr htoken⟩

theorem take (h : l.Balanced source) (n : Nat) : (l.take n).Balanced source :=
  ⟨h.source_eq, h.covers, h.cut⟩

theorem skip (h : l.Balanced source) : l.skip.Balanced source :=
  h.close fun t ht => by cases ht

theorem emit (h : l.Balanced source) (kind : Kind) : (l.emit kind).2.Balanced source := by
  refine h.close fun t ht => ?_
  obtain rfl := Option.some.inj ht
  exact ⟨rfl, h.source_eq ▸ l.cursor.pending_eq_cut⟩

end Balanced

namespace Steps

variable {source : Text} {l l' : Ledger} {made : List Token}

theorem balanced (h : Steps l made l') (hbalanced : l.Balanced source) : l'.Balanced source := by
  induction h with
  | refl => exact hbalanced
  | take n _ ih => exact ih (hbalanced.take n)
  | skip _ ih => exact ih hbalanced.skip
  | emit kind _ ih => exact ih (hbalanced.emit kind)

theorem tokens_eq (h : Steps l made l') : l'.tokens = l.tokens ++ made := by
  induction h with
  | refl => exact (List.append_nil _).symm
  | take n _ ih => exact ih
  | skip _ ih => rw [ih, tokens_skip]
  | emit kind _ ih => rw [ih, tokens_emit, List.append_assoc, List.singleton_append]

theorem position_le (h : Steps l made l') : l.cursor.position ≤ l'.cursor.position := by
  induction h with
  | refl => exact Nat.le_refl _
  | @take l _ _ n _ ih =>
    have hmove : l.cursor.position ≤ (l.take n).cursor.position :=
      (l.cursor.position_take n).symm ▸ Nat.le_add_right _ n
    exact Nat.le_trans hmove ih
  | @skip l _ _ _ ih => exact Nat.le_trans (Nat.le_of_eq l.cursor.position_skip.symm) ih
  | @emit l _ _ kind _ ih => exact Nat.le_trans (Nat.le_of_eq l.cursor.position_skip.symm) ih

end Steps

/-! ## The account of a run -/

/-- The ledger accounts for every character taken from a source, with these tokens made. -/
structure Accounts (l : Ledger) (source : Text) (made : List Token) : Prop where
  /-- No more is pending than was taken. -/
  held_le : l.cursor.held ≤ l.cursor.position
  /-- Entries and pending span divide what lies before the cursor, in order. -/
  covers : Covers 0 l.spans l.cursor.position
  /-- So each index before the cursor lies in one of them only. -/
  once : ∀ i < l.cursor.position, l.spans.countP (·.holds i) = 1
  /-- The tokens entered are the tokens made. -/
  tokens_eq : l.tokens = made
  /-- A token starts where its span does, and holds what the source does there. -/
  cut : ∀ e ∈ l.entries, ∀ t, e.token = some t →
    t.index = e.start ∧ t.literal = e.toSpan.cut source
  /-- What is pending is what the source holds in the pending span. -/
  pending_eq : l.cursor.pending = l.cursor.pendingSpan.cut source
  /-- No span starts before an earlier one stops. -/
  ordered : l.entries.Pairwise fun e e' => e.stop ≤ e'.start

theorem Balanced.accounts {source : Text} {l : Ledger} (h : l.Balanced source) :
    l.Accounts source l.tokens where
  held_le := Nat.le_add_left _ _
  covers := h.covers.concat (Nat.le_add_right _ _)
  once i hi := by
    have hcovers : Covers 0 l.spans l.cursor.position := h.covers.concat (Nat.le_add_right _ _)
    rw [hcovers.countP_holds, if_pos ⟨Nat.zero_le i, hi⟩]
  tokens_eq := rfl
  cut := h.cut
  pending_eq := h.source_eq ▸ l.cursor.pending_eq_cut
  ordered := List.pairwise_map.mp h.covers.pairwise

/-- The position never decreases. -/
theorem pairwise_position (l : Ledger) (ops : List Operation) :
    (l.cursor.position :: (l.performAll ops).map fun s => s.2.cursor.position).Pairwise
      (· ≤ ·) := by
  induction ops generalizing l with
  | nil => exact List.pairwise_singleton _ _
  | cons op ops ih =>
    have hle := (Steps.of_perform l op).position_le
    have htail := ih (l.perform op).2
    rw [performAll, List.map_cons]
    refine List.pairwise_cons.mpr ⟨List.forall_mem_cons.mpr ⟨hle, fun i hi => ?_⟩, htail⟩
    exact Nat.le_trans hle (List.rel_of_pairwise_cons htail hi)

end Ledger

/-- **No character is lost or used twice.**  Over any sequence of requests to one cursor,
failures included, the position never decreases, and after every request the spans of the
tokens made so far, the spans given up and the pending span divide what lies before the
cursor, in order.  The requests are carried out with a ledger, which changes neither answers
nor cursors. -/
theorem performAll_accounts (source : Text) (ops : List Operation) :
    let steps := (Ledger.opening source).performAll ops
    steps.map Ledger.erase = (Cursor.ofSource source).performAll ops ∧
      (steps.map fun s => s.2.cursor.position).Pairwise (· ≤ ·) ∧
        ∀ before s after, steps = before ++ s :: after →
          s.2.Accounts source ((before ++ [s]).flatMap fun s => s.1.made) := by
  refine ⟨Ledger.erase_performAll _ ops, (Ledger.pairwise_position _ ops).of_cons,
    fun before s after h => ?_⟩
  have hsteps := Ledger.steps_of_performAll h
  have hbalanced := hsteps.balanced (Ledger.balanced_opening source)
  have htokens := hsteps.tokens_eq
  have haccounts := hbalanced.accounts
  rw [htokens] at haccounts
  exact haccounts

end Lexis
