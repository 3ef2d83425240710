/-
# Procedures on a cursor

The recognisers see the text ahead as a list.  Here the same tokens are read by procedures that
reach the source through `Cursor.has` and `Cursor.get` only, one character at a time, and
whose loops nothing bounds.  A procedure comes to nothing where it looks up a character that is
not there, or where it goes on for ever.

Looking ahead does neither: each lookup is made only where a character is
(`Procedure.exec_peek`), and what a loop takes comes to an end (`Procedure.exec_acceptAll`).
-/

import Lexis.Cursor.Operation

namespace Lexis

/-- A procedure that moves a cursor and may fail.  There may be nothing that it comes to. -/
abbrev Procedure (α : Type) := ExceptT Failure (StateT Cursor Option) α

namespace Procedure

/-- What a procedure comes to. -/
def exec {α : Type} (p : Procedure α) (c : Cursor) : Option (Except Failure α × Cursor) := p c

/-! ## Procedures -/

/-- Whether a character stands `offset` places ahead. -/
def has (offset : Int) : Procedure Bool := fun c => some (.ok (c.has offset), c)

/-- The character `offset` places ahead.  There is nothing to come to if it is absent. -/
def look (offset : Int) : Procedure Char := fun c =>
  (c.get offset).toOption.map fun char => (.ok char, c)

/-- Takes one character. -/
def advance : Procedure Unit := fun c => some (.ok (), c.advance)

/-- Gives up the pending span. -/
def skip : Procedure Unit := fun c => some (.ok (), c.skip)

/-- Makes a token of the pending span. -/
def emit (kind : Kind) : Procedure Token := fun c => some (.ok (c.emit kind).1, (c.emit kind).2)

/-- Fails where the cursor stands. -/
def fail {α : Type} (fault : Fault) : Procedure α := fun c => some (.error (c.failure fault), c)

/-- Tests the characters from `offset` places ahead on, one class for each, and stops at the
first that is absent or not in its class. -/
def peekFrom (offset : Nat) : List (Char → Bool) → Procedure Bool
  | [] => return true
  | p :: pattern => do
    if ← has offset then
      if p (← look offset) then peekFrom (offset + 1) pattern else return false
    else return false

/-- Whether the next characters fit a pattern. -/
def peek (pattern : List (Char → Bool)) : Procedure Bool := peekFrom 0 pattern

/-- Takes what fits a pattern, one character after another. -/
def accept (pattern : List (Char → Bool)) : Procedure Bool := do
  if ← peek pattern then
    pattern.forM fun _ => advance
    return true
  else return false

/-- Takes characters of a class for as long as there are any. -/
def acceptAll (p : Char → Bool) : Procedure Unit := do
  -- A loop calls itself by `apply`, so its body does not depend on where it stands in this file.
  if ← accept [p] then by apply acceptAll; exact p else return ()
partial_fixpoint

/-- An identifier. -/
def identifier : Procedure Token := do
  let _ ← accept [CharClass.identifierStart.accepts]
  acceptAll CharClass.identifierPart.accepts
  emit .identifier

/-- The digits after a decimal point. -/
def fraction : Procedure Token := do
  if ← peek [CharClass.digit.accepts] then
    acceptAll CharClass.digit.accepts
    emit .decimal
  else fail .trailingPoint

/-- A number after the digits of its whole part. -/
def afterWhole : Procedure Token := do
  if ← accept [CharClass.point.accepts] then fraction else emit .integer

/-- A number without its sign. -/
def unsigned : Procedure Token := do
  if ← peek [CharClass.zero.accepts, CharClass.digit.accepts] then fail .leadingZero
  else
    acceptAll CharClass.digit.accepts
    afterWhole

/-- An integer or a decimal. -/
def number : Procedure Token := do
  let _ ← accept [CharClass.minus.accepts]
  unsigned

/-- A backslash and what it escapes. -/
def escape : Procedure Unit := do
  if ← accept [CharClass.backslash.accepts] then
    if ← accept [CharClass.escapeTarget.accepts] then return () else fail .escapeTarget
  else fail .escapeStart

/-- What stands between the quotes of a character literal. -/
def characterBody : Procedure Unit := do
  if ← peek [CharClass.backslash.accepts] then escape
  else if ← accept [CharClass.characterBody.accepts] then return ()
  else fail .characterBody

/-- The quote that closes a character literal. -/
def closingQuote : Procedure Token := do
  if ← accept [CharClass.singleQuote.accepts] then emit .character else fail .characterUnclosed

/-- A character literal after its opening quote. -/
def afterSingleQuote : Procedure Token := do
  characterBody
  closingQuote

/-- A character literal. -/
def character : Procedure Token := do
  let _ ← accept [CharClass.singleQuote.accepts]
  afterSingleQuote

/-- One character or escape of a string literal. -/
def stringItem : Procedure Unit := do
  if ← has 0 then
    if ← peek [CharClass.backslash.accepts] then escape
    else if ← accept [CharClass.stringBody.accepts] then return ()
    else fail .stringBody
  else fail .stringUnclosed

/-- What stands between the quotes of a string literal. -/
def stringBody : Procedure Unit := do
  if ← peek [CharClass.doubleQuote.accepts] then return ()
  else
    stringItem
    by apply stringBody
partial_fixpoint

/-- A string literal after its opening quote. -/
def afterDoubleQuote : Procedure Token := do
  stringBody
  let _ ← accept [CharClass.doubleQuote.accepts]
  emit .string

/-- A string literal. -/
def string : Procedure Token := do
  let _ ← accept [CharClass.doubleQuote.accepts]
  afterDoubleQuote

/-- An operator: the first of the pairs that there is, else a single character. -/
def operatorOf : List (Char × Char) → Procedure Token
  | [] => do
    let _ ← accept [CharClass.any.accepts]
    emit .operator
  | pair :: pairs => do
    if ← accept [(CharClass.exactly [pair.1]).accepts, (CharClass.exactly [pair.2]).accepts] then
      emit .operator
    else operatorOf pairs

/-- An operator. -/
def operator : Procedure Token := operatorOf Recogniser.pairs

/-- Any token, by its first character. -/
def token : Procedure Token := do
  if ← peek [CharClass.identifierStart.accepts] then identifier
  else if ← peek [CharClass.numberStart.accepts] then number
  else if ← peek [CharClass.singleQuote.accepts] then character
  else if ← peek [CharClass.doubleQuote.accepts] then string
  else if ← peek [CharClass.any.accepts] then operator
  else fail .noToken

/-- Reads on to the end of the source, with the tokens read before, last first. -/
def lexOnto (read : List Token) : Procedure (List Token) := do
  if ← has 0 then
    if ← accept [CharClass.whitespace.accepts] then
      skip
      by apply lexOnto; exact read
    else
      let t ← tryCatch token fun f => throw { f with tokens := read.reverse }
      by apply lexOnto; exact t :: read
  else return read.reverse
partial_fixpoint

/-! ## Steps -/

variable {α β : Type} {c next : Cursor}

theorem exec_bind_ok {p : Procedure α} {a : α} (h : exec p c = some (.ok a, next))
    (f : α → Procedure β) : exec (p >>= f) c = exec (f a) next := by
  show ((p c).bind _ : Option _) = _
  rw [show p c = some (.ok a, next) from h]
  rfl

theorem exec_bind_error {p : Procedure α} {f : Failure} (h : exec p c = some (.error f, next))
    (g : α → Procedure β) : exec (p >>= g) c = some (.error f, next) := by
  show ((p c).bind _ : Option _) = _
  rw [show p c = some (.error f, next) from h]
  rfl

theorem exec_bind_congr {p q : Procedure α} (h : exec p c = exec q next) (f : α → Procedure β) :
    exec (p >>= f) c = exec (q >>= f) next := by
  show ((p c).bind _ : Option _) = (q next).bind _
  rw [show p c = q next from h]

end Procedure

namespace Cursor

/-- Every index of the source can be looked up. -/
def Addressable (c : Cursor) : Prop := c.source.length ≤ 0x8000000000000000

theorem take_take (c : Cursor) (n k : Nat) : (c.take n).take k = c.take (n + k) :=
  ext rfl rfl (Nat.add_assoc c.held n k)

theorem has_natCast (c : Cursor) (n : Nat) : c.has n = decide (n < c.ahead.length) := by
  rw [has, ahead_eq, List.length_drop, decide_eq_decide]
  omega

theorem has_zero (c : Cursor) : c.has 0 = !c.ahead.isEmpty := by
  rw [← Int.natCast_zero, has_natCast]
  cases c.ahead <;> rfl

/-- A character that is ahead is found by looking it up. -/
theorem get_natCast {c : Cursor} (h : c.Addressable) {n : Nat} {char : Char}
    (hchar : c.ahead[n]? = some char) : c.get n = .ok char := by
  rw [ahead_eq, List.getElem?_drop] at hchar
  obtain ⟨hlt, -⟩ := List.getElem?_eq_some_iff.mp hchar
  have haddressable : isAddressable (c.position + n) = true := by
    have hle : c.source.length ≤ 0x8000000000000000 := h
    rw [isAddressable, Bool.and_eq_true, decide_eq_true_iff, decide_eq_true_iff]
    omega
  have hnonneg : ¬((c.position : Int) + n < 0) := by omega
  have hindex : ((c.position : Int) + n).toNat = c.position + n := by omega
  simp only [get, haddressable, if_true, hnonneg, if_false, hindex, hchar]

end Cursor

namespace Procedure

variable {c : Cursor} (h : c.Addressable)
include h

/-- The first class of a pattern is tested first. -/
theorem exec_peekFrom (pattern : List (Char → Bool)) (n : Nat) :
    exec (peekFrom n pattern) c = some (.ok (Cursor.fits pattern (c.ahead.drop n)), c) := by
  induction pattern generalizing n with
  | nil => rfl
  | cons p pattern ih =>
    have hhas : exec (has n) c = some (.ok (decide (n < c.ahead.length)), c) := by
      rw [← c.has_natCast n]
      rfl
    rw [peekFrom, exec_bind_ok hhas]
    rcases hdrop : c.ahead.drop n with _ | ⟨char, rest⟩
    · have hle : ¬ n < c.ahead.length := Nat.not_lt.mpr (List.drop_eq_nil_iff.mp hdrop)
      rw [decide_eq_false hle]
      rfl
    · have hchar : c.ahead[n]? = some char := by
        rw [← List.head?_drop, hdrop, List.head?_cons]
      have hlook : exec (look n) c = some (.ok char, c) := by
        rw [exec, look, Cursor.get_natCast h hchar]
        rfl
      have hlt : n < c.ahead.length := (List.getElem?_eq_some_iff.mp hchar).1
      have hrest : c.ahead.drop (n + 1) = rest := by
        rw [← List.drop_drop, hdrop, List.drop_one, List.tail_cons]
      rw [decide_eq_true hlt, if_pos rfl, exec_bind_ok hlook, Cursor.fits]
      cases hp : p char with
      | true => rw [if_pos rfl, ih, hrest, Bool.true_and]
      | false => rfl

theorem exec_peek (pattern : List (Char → Bool)) :
    exec (peek pattern) c = some (.ok (c.peek pattern), c) := exec_peekFrom h pattern 0

omit h in
theorem exec_forM_advance {β : Type} (l : List β) (c : Cursor) :
    exec (l.forM fun _ => advance) c = some (.ok (), c.take l.length) := by
  induction l generalizing c with
  | nil => rfl
  | cons _ l ih =>
    have hfirst : exec advance c = some (.ok (), c.take 1) := rfl
    show exec (advance >>= fun _ => l.forM fun _ => advance) c = _
    rw [exec_bind_ok hfirst, ih, Cursor.take_take, List.length_cons, Nat.add_comm]

theorem exec_accept (pattern : List (Char → Bool)) :
    exec (accept pattern) c = some (.ok (c.accept pattern).1, (c.accept pattern).2) := by
  rw [accept, exec_bind_ok (exec_peek h pattern), Cursor.accept]
  cases c.peek pattern with
  | true => rw [if_pos rfl, if_pos rfl, exec_bind_ok (exec_forM_advance pattern c)]; rfl
  | false => rfl

omit h in
theorem peek_singleton (p : Char → Bool) (c : Cursor) : c.peek [p] = c.ahead.head?.any p := by
  rw [Cursor.peek]
  cases c.ahead with
  | nil => rfl
  | cons a rest => simp only [Cursor.fits, Bool.and_true, List.head?_cons, Option.any_some]

omit h in
theorem accept_singleton (p : Char → Bool) (c : Cursor) :
    c.accept [p] = if c.ahead.head?.any p then (true, c.take 1) else (false, c) := by
  rw [Cursor.accept, peek_singleton, List.length_singleton]

theorem exec_acceptAll (p : Char → Bool) :
    exec (acceptAll p) c = some (.ok (), c.take (c.ahead.takeWhile p).length) := by
  generalize hahead : c.ahead = text
  induction text generalizing c with
  | nil =>
    rw [acceptAll, exec_bind_ok (exec_accept h [p]), accept_singleton, hahead]
    rfl
  | cons a rest ih =>
    rw [acceptAll, exec_bind_ok (exec_accept h [p]), accept_singleton, hahead, List.head?_cons,
      Option.any_some]
    have hnext : (c.take 1).ahead = rest := by
      rw [c.ahead_take, hahead, List.drop_one, List.tail_cons]
    cases hp : p a with
    | true =>
      rw [if_pos rfl, if_pos rfl, ih (c := c.take 1) h hnext, Cursor.take_take,
        List.takeWhile_cons_of_pos hp, List.length_cons, Nat.add_comm]
    | false =>
      rw [List.takeWhile_cons_of_neg (by rw [hp]; exact Bool.false_ne_true)]
      rfl

end Procedure
end Lexis
