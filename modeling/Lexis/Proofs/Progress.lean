/-
# Progress

Reading comes to an end from any state of a cursor, also with text pending that an earlier
failure left, and beyond the end of the source.  It has three loops:

| loop | stands in | a round that is not the last |
| --- | --- | --- |
| characters of a class | identifiers, numbers | takes one of them |
| body of a string literal | strings | takes one character or escape |
| run | whole sources | gives up one white space, or makes a token |

Nothing bounds the rounds but this: each takes the cursor further, and none beyond the end of
the source (`Cursor.Advances`).  So there are no more rounds than characters ahead, and what the
loops come to is what the recognisers tell (`Round.ends_of_again`, `Cursor.progresses`).
-/

import Lexis.Proofs.Safety

namespace Lexis

/-! ## Loops -/

/-- What a round of a loop comes to: the loop goes on in another state, or is over. -/
inductive Round (σ α : Type) where
  | again (next : σ)
  | done (result : α)

namespace Round

variable {σ α β : Type}

/-- Round after round until the loop is over, with the number of rounds before the last.  There
is nothing to come to if the loop is never over. -/
def loop (round : σ → Round σ α) (s : σ) : Option (Nat × α) :=
  match round s with
  | .done result => some (0, result)
  | .again next => do
    -- The loop calls itself by `apply`, as those of a procedure do.
    let (n, result) ← by apply loop; exact round; exact next
    return (n + 1, result)
partial_fixpoint

/-- The loop is over after at most so many rounds, and `close` makes the value of its result. -/
def Ends (round : σ → Round σ α) (s : σ) (bound : Nat) (close : α → β) (value : β) : Prop :=
  ∃ n result, loop round s = some (n, result) ∧ n ≤ bound ∧ close result = value

theorem Ends.mono {round : σ → Round σ α} {s : σ} {bound bound' : Nat} {close : α → β} {value : β}
    (h : Ends round s bound close value) (hle : bound ≤ bound') :
    Ends round s bound' close value := by
  obtain ⟨n, result, hloop, hn, hclose⟩ := h
  exact ⟨n, result, hloop, Nat.le_trans hn hle, hclose⟩

/-- **A loop that makes progress ends.**  Each round that goes on lowers the measure and keeps
the value, so the measure bounds the rounds, and the value at the end is that at the start. -/
theorem ends_of_again {round : σ → Round σ α} (measure : σ → Nat) (value : σ → β) {close : α → β}
    (hagain : ∀ s next, round s = .again next → measure next < measure s ∧ value next = value s)
    (hdone : ∀ s result, round s = .done result → close result = value s) (s : σ) :
    Ends round s (measure s) close (value s) := by
  induction hm : measure s using Nat.strongRecOn generalizing s with
  | ind m ih =>
    subst hm
    cases hround : round s with
    | done result =>
      refine ⟨0, result, ?_, Nat.zero_le _, hdone s result hround⟩
      rw [loop, hround]
    | again next =>
      obtain ⟨hlt, hvalue⟩ := hagain s next hround
      obtain ⟨n, result, hloop, hn, hclose⟩ := ih (measure next) hlt next rfl
      refine ⟨n + 1, result, ?_, Nat.lt_of_le_of_lt hn hlt, hclose.trans hvalue⟩
      rw [loop, hround]
      simp only [hloop]
      rfl

end Round

/-! ## Rounds of a cursor -/

namespace Cursor

/-- Takes a character of the class, if one is ahead. -/
def takeRound (p : Char → Bool) (c : Cursor) : Round Cursor Cursor :=
  match c.accept [p] with
  | (true, next) => .again next
  | (false, _) => .done c

/-- Takes a character or an escape of the body of a string literal. -/
def stringRound (c : Cursor) : Round Cursor (Except Failure Unit × Cursor) :=
  if c.peek [CharClass.doubleQuote.accepts] then .done (.ok (), c)
  else if c.has 0 then
    if c.peek [CharClass.backslash.accepts] then
      match c.escape with
      | (.ok (), next) => .again next
      | (.error f, next) => .done (.error f, next)
    else
      match c.accept [CharClass.stringBody.accepts] with
      | (true, next) => .again next
      | (false, _) => .done (.error (c.failure .stringBody), c)
  else .done (.error (c.failure .stringUnclosed), c)

/-- Takes the closing quote after the body of a string literal, and makes a token. -/
def closeString : Except Failure Unit × Cursor → Except Failure Token × Cursor
  | (.ok (), c) =>
    let made := (c.accept [CharClass.doubleQuote.accepts]).2.emit .string
    (.ok made.1, made.2)
  | (.error f, c) => (.error f, c)

/-- Gives up a white space or makes a token, with the tokens read before, last first. -/
def lexRound : List Token × Cursor →
    Round (List Token × Cursor) (Except Failure (List Token) × Cursor)
  | (read, c) =>
    if c.has 0 then
      match c.accept [CharClass.whitespace.accepts] with
      | (true, next) => .again (read, next.skip)
      | (false, _) =>
        match c.token with
        | (.ok t, next) => .again (t :: read, next)
        | (.error f, next) => .done (.error { f with tokens := read.reverse }, next)
    else .done (.ok read.reverse, c)

/-! ## Steps forward -/

/-- The cursor was taken further in its source, and not beyond the end of it. -/
structure Advances (c next : Cursor) : Prop where
  source_eq : next.source = c.source
  lt_position : c.position < next.position
  position_le : next.position ≤ c.source.length

variable {c next : Cursor}

theorem length_ahead (c : Cursor) : c.ahead.length = c.source.length - c.position := by
  rw [ahead_eq, List.length_drop]

theorem advances_take {n : Nat} (hpos : 0 < n) (hn : n ≤ c.ahead.length) :
    c.Advances (c.take n) := by
  rw [length_ahead] at hn
  refine ⟨rfl, ?_, ?_⟩ <;> rw [position_take] <;> omega

theorem Advances.skip (h : c.Advances next) : c.Advances next.skip := by
  refine ⟨h.source_eq, ?_, ?_⟩ <;> rw [position_skip]
  · exact h.lt_position
  · exact h.position_le

/-- A step forward leaves less ahead. -/
theorem Advances.length_ahead_lt (h : c.Advances next) : next.ahead.length < c.ahead.length := by
  have hlt := h.lt_position
  have hle := h.position_le
  rw [length_ahead, length_ahead, h.source_eq]
  omega

theorem length_ahead_accept_le (c : Cursor) (pattern : List (Char → Bool)) :
    (c.accept pattern).2.ahead.length ≤ c.ahead.length := by
  unfold accept
  split
  · rw [ahead_take, List.length_drop]
    exact Nat.sub_le _ _
  · exact Nat.le_refl _

theorem length_ahead_pos {a : Char} {rest : Text} (h : c.ahead = a :: rest) :
    1 ≤ c.ahead.length := by
  rw [h, List.length_cons]
  exact Nat.succ_pos _

/-- A token that was read is not empty, holds what was pending before, and leaves nothing
pending. -/
theorem advances_of_token {t : Token} (hahead : c.ahead ≠ []) (h : c.token = (.ok t, next)) :
    c.Advances next ∧ t.literal ≠ [] ∧ next.held = 0 := by
  obtain ⟨a, rest, hcons⟩ := List.exists_cons_of_ne_nil hahead
  have hreach := Recogniser.reach_rule_le .token c.ahead
  rw [token, recognise] at h
  split at h
  case h_2 => cases h
  case h_1 kind hkind =>
    cases h
    have hpos : 0 < (Recogniser.token c.ahead).taken := by
      rw [hcons] at hkind ⊢
      exact Recogniser.taken_token_pos hkind
    have htaken := Nat.le_trans (Reading.taken_le_reach _) hreach
    have hadvances : c.Advances (c.take (Recogniser.token c.ahead).taken) :=
      advances_take hpos htaken
    refine ⟨hadvances.skip, List.ne_nil_of_length_pos ?_, rfl⟩
    show 0 < (c.remaining.take (c.held + (Recogniser.token c.ahead).taken)).length
    have hle := hadvances.position_le
    have hlt := hadvances.lt_position
    rw [position] at hlt
    rw [List.length_take, c.remaining_eq, List.length_drop]
    omega

/-! ## What the loops come to -/

theorem has_iff : c.has 0 = true ↔ c.ahead ≠ [] := by
  rw [has_zero, Bool.not_eq_true', List.isEmpty_eq_false_iff]

theorem takeRound_eq (p : Char → Bool) (c : Cursor) :
    c.takeRound p = if c.ahead.head?.any p then .again (c.take 1) else .done c := by
  rw [takeRound, Procedure.accept_singleton]
  cases c.ahead.head?.any p <;> rfl

theorem takeRound_again {p : Char → Bool} (h : c.takeRound p = .again next) :
    c.Advances next ∧ next.take (next.ahead.takeWhile p).length =
      c.take (c.ahead.takeWhile p).length := by
  rw [takeRound_eq] at h
  split at h
  case isFalse => cases h
  case isTrue hp =>
    cases h
    obtain ⟨a, hhead, ha⟩ := (Option.any_eq_true ..).mp hp
    obtain ⟨rest, hahead⟩ := List.head?_eq_some_iff.mp hhead
    refine ⟨advances_take Nat.one_pos (length_ahead_pos hahead), ?_⟩
    rw [take_take, ahead_take, hahead, List.drop_one, List.tail_cons,
      List.takeWhile_cons_of_pos ha, List.length_cons, Nat.add_comm]

theorem takeRound_done {p : Char → Bool} (h : c.takeRound p = .done next) :
    next = c.take (c.ahead.takeWhile p).length := by
  rw [takeRound_eq] at h
  split at h
  case isTrue => cases h
  case isFalse hp =>
    cases h
    rw [Recogniser.takeWhile_eq_nil_of_stop (Bool.eq_false_iff.mpr hp)]
    rfl

/-- Taking characters of a class ends, and takes as many as there are. -/
theorem ends_takeRound (p : Char → Bool) (c : Cursor) :
    Round.Ends (takeRound p) c c.ahead.length id (c.take (c.ahead.takeWhile p).length) :=
  Round.ends_of_again (fun c => c.ahead.length) (fun c => c.take (c.ahead.takeWhile p).length)
    (fun _ _ h => ⟨(takeRound_again h).1.length_ahead_lt, (takeRound_again h).2⟩)
    (fun _ _ h => takeRound_done h) c

/-- What a round of a string literal comes to, told by what is ahead. -/
inductive StringRound (c : Cursor) : Round Cursor (Except Failure Unit × Cursor) → Prop where
  | quote {rest : Text} (h : c.ahead = '"' :: rest) : StringRound c (.done (.ok (), c))
  | input (h : c.ahead = []) : StringRound c (.done (.error (c.failure .stringUnclosed), c))
  | escape {target : Char} {rest : Text} (h : c.ahead = '\\' :: target :: rest)
      (htarget : Glyph.isEscapeTarget target = true) : StringRound c (.again (c.take 2))
  | badEscape {rest : Text} (h : c.ahead = '\\' :: rest)
      (hrest : rest.head?.any Glyph.isEscapeTarget = false) :
      StringRound c (.done (.error ((c.take 1).failure .escapeTarget), c.take 1))
  | plain {a : Char} {rest : Text} (h : c.ahead = a :: rest) (ha : a ∉ ['\\', '"', '\n', '\r']) :
      StringRound c (.again (c.take 1))
  | lineBreak {a : Char} {rest : Text} (h : c.ahead = a :: rest) (ha : a = '\n' ∨ a = '\r') :
      StringRound c (.done (.error (c.failure .stringBody), c))

theorem stringRound_spec (c : Cursor) : StringRound c c.stringRound := by
  rcases hahead : c.ahead with _ | ⟨a, rest⟩
  · have hround : c.stringRound = .done (.error (c.failure .stringUnclosed), c) := by
      rw [Cursor.stringRound, Procedure.peek_singleton, has_zero, hahead]
      rfl
    exact hround ▸ .input hahead
  have hpeek : ∀ p, c.peek [p] = p a := fun p => by
    rw [Procedure.peek_singleton, hahead, List.head?_cons, Option.any_some]
  have hmore : c.has 0 = true := has_iff.mpr (hahead ▸ List.cons_ne_nil a rest)
  rw [Cursor.stringRound, hpeek, hpeek, hmore, if_pos rfl]
  by_cases hquote : a = '"'
  · subst hquote
    exact .quote hahead
  by_cases hbackslash : a = '\\'
  · subst hbackslash
    rcases hrest : rest.head?.any Glyph.isEscapeTarget with _ | _
    · have hescape : c.escape = (.error ((c.take 1).failure .escapeTarget), c.take 1) := by
        rw [Cursor.escape, hahead, Recogniser.escape_badTarget hrest]
      rw [hescape]
      exact .badEscape hahead hrest
    · obtain ⟨target, hhead, htarget⟩ := (Option.any_eq_true ..).mp hrest
      obtain ⟨rest, rfl⟩ := List.head?_eq_some_iff.mp hhead
      have hescape : c.escape = (.ok (), c.take 2) := by
        rw [Cursor.escape, hahead, Recogniser.escape_target htarget]
      rw [hescape]
      exact .escape hahead htarget
  by_cases hbreak : a = '\n' ∨ a = '\r'
  · have haccept : c.accept [CharClass.stringBody.accepts] = (false, c) := by
      rw [Procedure.accept_singleton, hahead]
      rcases hbreak with rfl | rfl <;> rfl
    rw [haccept]
    have hround := StringRound.lineBreak hahead hbreak
    rcases hbreak with rfl | rfl <;> exact hround
  · have ha : a ∉ ['\\', '"', '\n', '\r'] := by
      simp only [List.mem_cons, List.not_mem_nil, or_false, not_or] at hbreak ⊢
      exact ⟨hbackslash, hquote, hbreak⟩
    have hplain : CharClass.stringBody.accepts a = true := CharClass.accepts_noneOf.mpr ha
    have haccept : c.accept [CharClass.stringBody.accepts] = (true, c.take 1) := by
      rw [Procedure.accept_singleton, hahead, List.head?_cons, Option.any_some, if_pos hplain]
    have hnoQuote : CharClass.doubleQuote.accepts a = false :=
      (CharClass.accepts_exactly '"' a).trans (beq_false_of_ne hquote)
    have hnoBackslash : CharClass.backslash.accepts a = false :=
      (CharClass.accepts_exactly '\\' a).trans (beq_false_of_ne hbackslash)
    rw [haccept, hnoQuote, hnoBackslash]
    exact .plain hahead ha

theorem stringRound_again (h : c.stringRound = .again next) :
    c.Advances next ∧ next.recognise (Recogniser.stringFrom 0) =
      c.recognise (Recogniser.stringFrom 0) := by
  have hround := h ▸ c.stringRound_spec
  cases hround with
  | escape hahead htarget =>
    have hlength : 2 ≤ c.ahead.length := by
      rw [hahead, List.length_cons, List.length_cons]
      omega
    refine ⟨advances_take Nat.two_pos hlength, (recognise_after ?_).symm⟩
    rw [ahead_take, hahead, Recogniser.stringFrom_escape htarget, Recogniser.stringFrom_after]
    rfl
  | plain hahead ha =>
    refine ⟨advances_take Nat.one_pos (length_ahead_pos hahead), (recognise_after ?_).symm⟩
    rw [ahead_take, hahead, Recogniser.stringFrom_plain ha, Recogniser.stringFrom_after]
    rfl

theorem stringRound_done {result : Except Failure Unit × Cursor}
    (h : c.stringRound = .done result) :
    closeString result = c.recognise (Recogniser.stringFrom 0) := by
  have hround := h ▸ c.stringRound_spec
  rw [recognise]
  cases hround with
  | quote hahead =>
    rw [closeString, Procedure.accept_singleton, hahead]
    rfl
  | input hahead =>
    rw [hahead]
    rfl
  | badEscape hahead hrest =>
    rw [hahead, Recogniser.stringFrom_badEscape hrest]
    rfl
  | lineBreak hahead ha =>
    rw [hahead, Recogniser.stringFrom_lineBreak ha]
    rfl

/-- The loop is over without a failure only where the closing quote is ahead. -/
theorem stringRound_done_ok (h : c.stringRound = .done (.ok (), next)) :
    c.peek [CharClass.doubleQuote.accepts] = true := by
  have hround := h ▸ c.stringRound_spec
  cases hround with
  | quote hahead =>
    rw [Procedure.peek_singleton, hahead]
    rfl

theorem ends_stringRound (c : Cursor) :
    Round.Ends stringRound c c.ahead.length closeString (c.recognise (Recogniser.stringFrom 0)) :=
  Round.ends_of_again (fun c => c.ahead.length) (fun c => c.recognise (Recogniser.stringFrom 0))
    (fun _ _ h => ⟨(stringRound_again h).1.length_ahead_lt, (stringRound_again h).2⟩)
    (fun _ _ h => stringRound_done h) c

/-- What a round of a run comes to, told by what is ahead. -/
inductive LexRound (read : List Token) (c : Cursor) :
    Round (List Token × Cursor) (Except Failure (List Token) × Cursor) → Prop where
  | finished (h : c.ahead = []) : LexRound read c (.done (.ok read.reverse, c))
  | white {a : Char} {rest : Text} (h : c.ahead = a :: rest)
      (ha : CharClass.whitespace.accepts a = true) :
      LexRound read c (.again (read, c.advance.skip))
  | token {a : Char} {rest : Text} {t : Token} {next : Cursor} (h : c.ahead = a :: rest)
      (ha : CharClass.whitespace.accepts a = false) (ht : c.token = (.ok t, next)) :
      LexRound read c (.again (t :: read, next))
  | failure {a : Char} {rest : Text} {f : Failure} {next : Cursor} (h : c.ahead = a :: rest)
      (ha : CharClass.whitespace.accepts a = false) (ht : c.token = (.error f, next)) :
      LexRound read c (.done (.error { f with tokens := read.reverse }, next))

theorem lexRound_spec (read : List Token) (c : Cursor) : LexRound read c (lexRound (read, c)) := by
  rcases hahead : c.ahead with _ | ⟨a, rest⟩
  · have hround : lexRound (read, c) = .done (.ok read.reverse, c) := by
      rw [lexRound, has_zero, hahead]
      rfl
    exact hround ▸ .finished hahead
  have hmore : c.has 0 = true := has_iff.mpr (hahead ▸ List.cons_ne_nil a rest)
  rw [lexRound, if_pos hmore, Procedure.accept_singleton, hahead, List.head?_cons, Option.any_some]
  cases ha : CharClass.whitespace.accepts a with
  | true => exact .white hahead ha
  | false =>
    rcases htoken : c.token with ⟨f | t, next⟩
    · exact .failure hahead ha htoken
    · exact .token hahead ha htoken

theorem lexRound_again {read read' : List Token} (h : lexRound (read, c) = .again (read', next)) :
    c.Advances next ∧ next.lexOnto read' = c.lexOnto read := by
  have hround := h ▸ c.lexRound_spec read
  cases hround with
  | white hahead ha =>
    have hadvances : c.Advances (c.take 1) := advances_take Nat.one_pos (length_ahead_pos hahead)
    exact ⟨hadvances.skip, (lexOnto_of_whitespace hahead ha).symm⟩
  | token hahead ha htoken =>
    exact ⟨(advances_of_token (hahead ▸ List.cons_ne_nil _ _) htoken).1,
      (lexOnto_of_token_ok hahead ha htoken).symm⟩

theorem lexRound_done {read : List Token} {result : Except Failure (List Token) × Cursor}
    (h : lexRound (read, c) = .done result) : result = c.lexOnto read := by
  have hround := h ▸ c.lexRound_spec read
  cases hround with
  | finished hahead => exact (lexOnto_of_ahead_eq_nil hahead).symm
  | failure hahead ha htoken => exact (lexOnto_of_token_error hahead ha htoken).symm

/-- The run is over without a failure only where nothing is ahead. -/
theorem lexRound_done_ok {read tokens : List Token}
    (h : lexRound (read, c) = .done (.ok tokens, next)) : c.ahead = [] := by
  have hround := h ▸ c.lexRound_spec read
  cases hround with
  | finished hahead => exact hahead

theorem ends_lexRound (read : List Token) (c : Cursor) :
    Round.Ends lexRound (read, c) c.ahead.length id (c.lexOnto read) :=
  Round.ends_of_again (fun s => s.2.ahead.length) (fun s => s.2.lexOnto s.1)
    (fun _ _ h => ⟨(lexRound_again h).1.length_ahead_lt, (lexRound_again h).2⟩)
    (fun _ _ h => lexRound_done h) (read, c)

/-- A run that succeeds has nothing ahead, and nothing pending if there was something to read. -/
theorem lexOnto_ok {read tokens : List Token} (h : c.lexOnto read = (.ok tokens, next)) :
    next.source = c.source ∧ next.ahead = [] ∧ (next.held = 0 ∨ c.ahead = [] ∧ next = c) := by
  fun_induction Cursor.lexOnto read c with
  | case1 read c hahead =>
    cases h
    exact ⟨rfl, hahead, .inr ⟨hahead, rfl⟩⟩
  | case2 read c a rest hahead hwhite ih =>
    obtain ⟨hsource, hend, hpending⟩ := ih h
    refine ⟨hsource, hend, .inl ?_⟩
    rcases hpending with hheld | ⟨-, rfl⟩
    · exact hheld
    · rfl
  | case3 read c a rest hahead hwhite t later htoken ih =>
    obtain ⟨hadvances, -, hlater⟩ := advances_of_token (hahead ▸ List.cons_ne_nil _ _) htoken
    obtain ⟨hsource, hend, hpending⟩ := ih h
    refine ⟨hsource.trans hadvances.source_eq, hend, .inl ?_⟩
    rcases hpending with hheld | ⟨-, rfl⟩
    · exact hheld
    · exact hlater
  | case4 read c a rest hahead hwhite f later htoken => cases h

/-! ## Any state of a cursor -/

/-- What progress means for a cursor in any state: `start` and `held` may be whatever earlier
requests left, also beyond the end of the source. -/
structure Progresses (c : Cursor) : Prop where
  /-- Read character by character, with loops that nothing bounds, every request comes to what it
  comes to here, as long as every index of the source can be looked up at all. -/
  answered : c.source.length ≤ 2 ^ 63 → ∀ op : Operation, op.isGuarded = true →
    Procedure.carryOut c op = some (c.perform op)
  /-- Each loop is over after no more rounds than there are characters ahead. -/
  takes : ∀ p, Round.Ends (takeRound p) c (c.source.length - c.position) id
    (c.take (c.ahead.takeWhile p).length)
  string : Round.Ends stringRound (c.accept [CharClass.doubleQuote.accepts]).2
    (c.source.length - c.position) closeString (c.recognise Recogniser.string)
  lex : Round.Ends lexRound ([], c) (c.source.length - c.position) id c.lex
  /-- Unless the loop is over, a round fails or takes the cursor further. -/
  takeRound : ∀ p, c.peek [p] = true → ∃ next, c.takeRound p = .again next ∧ c.Advances next
  stringRound : c.peek [CharClass.doubleQuote.accepts] = false →
    (∃ f next, c.stringRound = .done (.error f, next)) ∨
      ∃ next, c.stringRound = .again next ∧ c.Advances next
  lexRound : c.has 0 = true → ∀ read,
    (∃ f next, lexRound (read, c) = .done (.error f, next)) ∨
      ∃ read' next, lexRound (read, c) = .again (read', next) ∧ c.Advances next
  /-- Before the end of the source a token is read that is not empty, or none can be read. -/
  token : c.position < c.source.length → (∃ f next, c.token = (.error f, next)) ∨
    ∃ t next, c.token = (.ok t, next) ∧ t.literal ≠ [] ∧ c.Advances next
  /-- A run that succeeds ends at the end of the source with nothing pending, or has not moved
  from there. -/
  finished : ∀ tokens next, c.lex = (.ok tokens, next) → c.source.length ≤ next.position ∧
    (next.held = 0 ∧ next.pending = [] ∨ c.source.length ≤ c.position ∧ next = c)

theorem ahead_eq_nil_iff (c : Cursor) : c.ahead = [] ↔ c.source.length ≤ c.position := by
  rw [ahead_eq, List.drop_eq_nil_iff]

/-- **Reading makes progress from every state of a cursor.** -/
theorem progresses (c : Cursor) : c.Progresses where
  answered hword _ hop := Procedure.carryOut_eq hword hop
  takes p := c.length_ahead ▸ ends_takeRound p c
  string := by
    have hends := ends_stringRound (c.accept [CharClass.doubleQuote.accepts]).2
    rw [← recognise_optionally] at hends
    exact hends.mono (c.length_ahead ▸ c.length_ahead_accept_le _)
  lex := c.length_ahead ▸ ends_lexRound [] c
  takeRound p hp := by
    rw [Procedure.peek_singleton] at hp
    have hround : c.takeRound p = .again (c.take 1) := (takeRound_eq p c).trans (if_pos hp)
    exact ⟨_, hround, (takeRound_again hround).1⟩
  stringRound hquote := by
    cases hround : c.stringRound with
    | again next => exact .inr ⟨next, rfl, (stringRound_again hround).1⟩
    | done result =>
      rcases result with ⟨f | ⟨⟩, next⟩
      · exact .inl ⟨f, next, rfl⟩
      · exact absurd (hquote.symm.trans (stringRound_done_ok hround)) Bool.false_ne_true
  lexRound hmore read := by
    cases hround : Cursor.lexRound (read, c) with
    | again s => exact .inr ⟨s.1, s.2, rfl, (lexRound_again hround).1⟩
    | done result =>
      rcases result with ⟨f | tokens, next⟩
      · exact .inl ⟨f, next, rfl⟩
      · exact absurd (lexRound_done_ok hround) (has_iff.mp hmore)
  token hlt := by
    have hahead : c.ahead ≠ [] := fun hnil =>
      Nat.not_le.mpr hlt (c.ahead_eq_nil_iff.mp hnil)
    cases htoken : c.token with
    | mk result next =>
      cases result with
      | error f => exact .inl ⟨f, next, rfl⟩
      | ok t =>
        obtain ⟨hadvances, hne, -⟩ := advances_of_token hahead htoken
        exact .inr ⟨t, next, rfl, hne, hadvances⟩
  finished tokens next h := by
    obtain ⟨hsource, hend, hpending⟩ := lexOnto_ok h
    refine ⟨hsource ▸ next.ahead_eq_nil_iff.mp hend, ?_⟩
    rcases hpending with hheld | ⟨hahead, hsame⟩
    · exact .inl ⟨hheld, by rw [pending, hheld, List.take_zero]⟩
    · exact .inr ⟨c.ahead_eq_nil_iff.mp hahead, hsame⟩

end Cursor
end Lexis
