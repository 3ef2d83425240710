/-
# The cursor

A cursor stands in a source and remembers what it has taken since the last token.  The
characters before it fall into those that are done with and the *pending* span:

    done with │ pending        │ ahead
              start            start + held

Taking characters grows the pending span, `skip` gives it up and `emit` makes a token of
it.  Nothing is ever taken back, also not when a recogniser fails.  A cursor may be moved
past the end of its source; spans are then cut at the end.
-/

import Lexis.Recogniser

namespace Lexis

/-- Why there is no character at an index. -/
inductive IndexFault where
  /-- The source has no character there. -/
  | outOfRange
  /-- The index is too wide for a word, whatever the source. -/
  | unaddressable
deriving DecidableEq, Repr

/-- The wording of a fault. -/
def IndexFault.message : IndexFault → Text
  | outOfRange => "string index out of range".toList
  | unaddressable => "cannot fit 'int' into an index-sized integer".toList

/-- A place in a source, with the span that no token holds yet. -/
structure Cursor where
  /-- The whole source. -/
  source : Text
  /-- Where the pending span starts. -/
  start : Nat
  /-- How long the pending span is. -/
  held : Nat
  /-- The source from the start of the pending span on. -/
  remaining : Text
  remaining_eq : remaining = source.drop start

namespace Cursor

/-- A cursor is told by its source, the start of its pending span and the length of it. -/
theorem ext {a b : Cursor} (hsource : a.source = b.source) (hstart : a.start = b.start)
    (hheld : a.held = b.held) : a = b := by
  obtain ⟨source, start, held, remaining, h⟩ := a
  obtain ⟨source', start', held', remaining', h'⟩ := b
  simp only at hsource hstart hheld
  subst hsource hstart hheld h h'
  rfl

/-- The cursor at the start of a source. -/
def ofSource (source : Text) : Cursor := ⟨source, 0, 0, source, rfl⟩

/-- The index of the next character. -/
def position (c : Cursor) : Nat := c.start + c.held

/-- The text taken since the last token. -/
def pending (c : Cursor) : Text := c.remaining.take c.held

/-- The text not taken yet. -/
def ahead (c : Cursor) : Text := c.remaining.drop c.held

theorem ahead_eq (c : Cursor) : c.ahead = c.source.drop c.position := by
  simp [ahead, position, c.remaining_eq, List.drop_drop]

/-- Whether a character stands `offset` places ahead.  There is no lower bound. -/
def has (c : Cursor) (offset : Int) : Bool := c.position + offset < c.source.length

/-- Whether an index can be looked up at all: it fits a signed word of 64 bits. -/
def isAddressable (index : Int) : Bool := -0x8000000000000000 ≤ index && index < 0x8000000000000000

/-- The character `offset` places ahead.  An index below zero counts from the end of the
source; whether it is addressable is judged before that. -/
def get (c : Cursor) (offset : Int) : Except IndexFault Char :=
  let index := c.position + offset
  if isAddressable index then
    let fromStart := if index < 0 then index + c.source.length else index
    match if fromStart < 0 then none else c.source[fromStart.toNat]? with
    | some char => .ok char
    | none => .error .outOfRange
  else .error .unaddressable

/-- Takes `n` characters. -/
def take (c : Cursor) (n : Nat) : Cursor := { c with held := c.held + n }

/-- Takes one character. -/
def advance (c : Cursor) : Cursor := c.take 1

/-- Gives up the pending span. -/
def skip (c : Cursor) : Cursor where
  source := c.source
  start := c.position
  held := 0
  remaining := c.ahead
  remaining_eq := c.ahead_eq

/-- Makes a token of the pending span. -/
def emit (c : Cursor) (kind : Kind) : Token × Cursor := (⟨kind, c.pending, c.start⟩, c.skip)

@[simp] theorem position_take (c : Cursor) (n : Nat) : (c.take n).position = c.position + n := by
  simp [position, take, Nat.add_assoc]

@[simp] theorem ahead_take (c : Cursor) (n : Nat) : (c.take n).ahead = c.ahead.drop n := by
  simp [ahead, take, List.drop_drop]

@[simp] theorem position_skip (c : Cursor) : c.skip.position = c.position := by
  simp [position, skip]

@[simp] theorem ahead_skip (c : Cursor) : c.skip.ahead = c.ahead := by
  simp [ahead, skip]

/-- Whether the next characters fit the pattern, one class for each. -/
def fits : List (Char → Bool) → Text → Bool
  | [], _ => true
  | p :: pattern, c :: text => p c && fits pattern text
  | _ :: _, [] => false

/-- Whether the text ahead fits a pattern. -/
def peek (c : Cursor) (pattern : List (Char → Bool)) : Bool := fits pattern c.ahead

/-- Takes what fits a pattern; takes nothing if the text ahead does not fit. -/
def accept (c : Cursor) (pattern : List (Char → Bool)) : Bool × Cursor :=
  if c.peek pattern then (true, c.take pattern.length) else (false, c)

/-- The failure of a recogniser that has taken all it could. -/
def failure (c : Cursor) (fault : Fault) : Failure := ⟨fault, c.position + fault.offset, []⟩

/-- Takes what the escape recogniser takes. -/
def escape (c : Cursor) : Except Failure Unit × Cursor :=
  let reading := Recogniser.escape c.ahead
  let moved := c.take reading.taken
  match reading.verdict with
  | .ok () => (.ok (), moved)
  | .error fault => (.error (moved.failure fault), moved)

/-- Takes what a recogniser takes and makes a token of the pending span. -/
def recognise (c : Cursor) (recogniser : Recogniser Kind) : Except Failure Token × Cursor :=
  let reading := recogniser c.ahead
  let moved := c.take reading.taken
  match reading.verdict with
  | .ok kind => (.ok (moved.emit kind).1, (moved.emit kind).2)
  | .error fault => (.error (moved.failure fault), moved)

/-- Reads one token. -/
def token (c : Cursor) : Except Failure Token × Cursor := c.recognise Recogniser.token

/-- A token that was read leaves less ahead. -/
theorem length_ahead_token {c : Cursor} {t : Token} {next : Cursor} (hne : c.ahead ≠ [])
    (h : c.token = (.ok t, next)) : next.ahead.length < c.ahead.length := by
  obtain ⟨a, rest, heq⟩ := List.exists_cons_of_ne_nil hne
  simp only [token, recognise, heq] at h
  split at h
  · rename_i kind hkind
    have hpos := Recogniser.taken_token_pos hkind
    obtain ⟨-, rfl⟩ := Prod.mk.inj h
    simp only [emit, ahead_skip, ahead_take, heq, List.length_drop, List.length_cons]
    omega
  · exact absurd (Prod.mk.inj h).1 (by simp)

/-- Reads on to the end of the source, with the tokens read before, last first.  White
space between tokens is given up character by character. -/
def lexOnto (read : List Token) (c : Cursor) : Except Failure (List Token) × Cursor :=
  match _hahead : c.ahead with
  | [] => (.ok read.reverse, c)
  | next :: _ =>
    if CharClass.whitespace.accepts next then lexOnto read c.advance.skip
    else
      match _htoken : c.token with
      | (.ok t, c') => lexOnto (t :: read) c'
      | (.error failure, c') => (.error { failure with tokens := read.reverse }, c')
termination_by c.ahead.length
decreasing_by
  · simp [advance, _hahead]
  · exact length_ahead_token (by simp [_hahead]) _htoken

/-- At the end of the source the run is over. -/
theorem lexOnto_of_ahead_eq_nil {read : List Token} {c : Cursor} (h : c.ahead = []) :
    c.lexOnto read = (.ok read.reverse, c) := by
  rw [lexOnto]
  split
  · rfl
  · rename_i heq
    rw [h] at heq
    cases heq

/-- White space is given up. -/
theorem lexOnto_of_whitespace {read : List Token} {c : Cursor} {a : Char} {rest : Text}
    (h : c.ahead = a :: rest) (ha : CharClass.whitespace.accepts a = true) :
    c.lexOnto read = c.advance.skip.lexOnto read := by
  rw [lexOnto]
  split
  · rename_i heq
    rw [h] at heq
    cases heq
  · rename_i heq
    rw [h] at heq
    cases heq
    rw [if_pos ha]

/-- Elsewhere a token is read, and the run goes on after it. -/
theorem lexOnto_of_token_ok {read : List Token} {c next : Cursor} {t : Token} {a : Char}
    {rest : Text} (h : c.ahead = a :: rest) (ha : CharClass.whitespace.accepts a = false)
    (ht : c.token = (.ok t, next)) : c.lexOnto read = next.lexOnto (t :: read) := by
  rw [lexOnto]
  split
  · rename_i heq
    rw [h] at heq
    cases heq
  · rename_i heq
    rw [h] at heq
    cases heq
    rw [if_neg (by rw [ha]; exact Bool.false_ne_true)]
    split
    · rename_i hok
      rw [ht] at hok
      cases hok
      rfl
    · rename_i herror
      rw [ht] at herror
      cases herror

/-- A token that cannot be read ends the run. -/
theorem lexOnto_of_token_error {read : List Token} {c next : Cursor} {f : Failure} {a : Char}
    {rest : Text} (h : c.ahead = a :: rest) (ha : CharClass.whitespace.accepts a = false)
    (ht : c.token = (.error f, next)) :
    c.lexOnto read = (.error { f with tokens := read.reverse }, next) := by
  rw [lexOnto]
  split
  · rename_i heq
    rw [h] at heq
    cases heq
  · rename_i heq
    rw [h] at heq
    cases heq
    rw [if_neg (by rw [ha]; exact Bool.false_ne_true)]
    split
    · rename_i hok
      rw [ht] at hok
      cases hok
    · rename_i herror
      rw [ht] at herror
      cases herror
      rfl

/-- Reads all tokens up to the end of the source, or up to the first fault. -/
def lex (c : Cursor) : Except Failure (List Token) × Cursor := c.lexOnto []

end Cursor

/-- The tokens of a source. -/
def lex (source : Text) : Except Failure (List Token) := (Cursor.ofSource source).lex.1

end Lexis
