/-
# Recognisers

A recogniser looks at the text ahead and tells how many characters it takes and what
they are, or which fault stops it; the characters taken before a fault stay taken.  It
sees nothing of what came before.

| kind | form |
| --- | --- |
| identifier | a letter or `@`, then letters, digits, `_` and `-` |
| integer | maybe `-`, then digits without a needless leading zero |
| decimal | an integer, `.`, digits |
| character | `'`, one character or escape, `'` |
| string | `"`, characters and escapes, `"` |
| operator | `!=`, `==`, `&&`, `||` or any one character |

A recogniser does not insist on its first character: where that is missing it reads on
with the rest of its form.
-/

import Lexis.CharClass
import Lexis.Fault

namespace Lexis

/-- What a recogniser made of the text ahead. -/
structure Reading (α : Type) where
  /-- How many characters it took. -/
  taken : Nat
  /-- What they are, or why it stopped. -/
  verdict : Except Fault α

/-- A recogniser. -/
abbrev Recogniser (α : Type) := Text → Reading α

namespace Reading

/-- A reading that began `n` characters further on. -/
def after {α : Type} (n : Nat) (r : Reading α) : Reading α := ⟨n + r.taken, r.verdict⟩

@[simp]
theorem taken_after {α : Type} (n : Nat) (r : Reading α) : (r.after n).taken = n + r.taken := rfl

@[simp]
theorem verdict_after {α : Type} (n : Nat) (r : Reading α) : (r.after n).verdict = r.verdict :=
  rfl

end Reading

namespace Recogniser

/-- Takes one character of the class, if there is one, and goes on after it. -/
def optionally {α : Type} (p : Char → Bool) (next : Recogniser α) : Recogniser α
  | [] => next []
  | c :: rest => if p c then (next rest).after 1 else next (c :: rest)

/-- Goes on after what the first recogniser took, unless that failed. -/
def followedBy {α β : Type} (first : Recogniser α) (next : Recogniser β) : Recogniser β :=
  fun text =>
    let reading := first text
    match reading.verdict with
    | .ok _ => (next (text.drop reading.taken)).after reading.taken
    | .error fault => ⟨reading.taken, .error fault⟩

/-- Takes as many characters of the class as there are. -/
def run (p : Char → Bool) (kind : Kind) : Recogniser Kind := fun text =>
  ⟨(text.takeWhile p).length, .ok kind⟩

/-- An identifier. -/
def identifier : Recogniser Kind :=
  optionally CharClass.identifierStart.accepts
    (run CharClass.identifierPart.accepts .identifier)

/-- Whether a number starts with a zero that another digit follows. -/
def startsWithNeedlessZero : Text → Bool
  | c :: d :: _ => CharClass.zero.accepts c && CharClass.digit.accepts d
  | _ => false

/-- The digits after a decimal point; at least one. -/
def fraction : Recogniser Kind := fun text =>
  match (text.takeWhile CharClass.digit.accepts).length with
  | 0 => ⟨0, .error .trailingPoint⟩
  | n + 1 => ⟨n + 1, .ok .decimal⟩

/-- A number from inside, after the `taken` digits of its whole part. -/
def numberFrom (taken : Nat) : Recogniser Kind
  | '.' :: rest => (fraction rest).after (taken + 1)
  | _ => ⟨taken, .ok .integer⟩

/-- A number without its sign. -/
def unsigned : Recogniser Kind := fun text =>
  if startsWithNeedlessZero text then ⟨0, .error .leadingZero⟩
  else
    let whole := (text.takeWhile CharClass.digit.accepts).length
    numberFrom whole (text.drop whole)

/-- An integer or a decimal. -/
def number : Recogniser Kind := optionally CharClass.minus.accepts unsigned

/-- A backslash and what it escapes. -/
def escape : Recogniser Unit
  | '\\' :: target :: _ =>
    if CharClass.escapeTarget.accepts target then ⟨2, .ok ()⟩ else ⟨1, .error .escapeTarget⟩
  | ['\\'] => ⟨1, .error .escapeTarget⟩
  | _ => ⟨0, .error .escapeStart⟩

/-- The quote that closes a character literal. -/
def closingQuote : Recogniser Kind
  | '\'' :: _ => ⟨1, .ok .character⟩
  | _ => ⟨0, .error .characterUnclosed⟩

/-- A character literal after its opening quote. -/
def afterSingleQuote : Recogniser Kind
  | [] => ⟨0, .error .characterBody⟩
  | c :: rest =>
    if CharClass.backslash.accepts c then followedBy escape closingQuote (c :: rest)
    else if CharClass.characterBody.accepts c then (closingQuote rest).after 1
    else ⟨0, .error .characterBody⟩

/-- A character literal. -/
def character : Recogniser Kind := optionally CharClass.singleQuote.accepts afterSingleQuote

/-- A string literal from inside, after `taken` characters of it beyond the opening quote. -/
def stringFrom (taken : Nat) : Recogniser Kind
  | [] => ⟨taken, .error .stringUnclosed⟩
  | '"' :: _ => ⟨taken + 1, .ok .string⟩
  | ['\\'] => ⟨taken + 1, .error .escapeTarget⟩
  | '\\' :: target :: rest =>
    if CharClass.escapeTarget.accepts target then stringFrom (taken + 2) rest
    else ⟨taken + 1, .error .escapeTarget⟩
  | c :: rest =>
    if CharClass.stringBody.accepts c then stringFrom (taken + 1) rest
    else ⟨taken, .error .stringBody⟩

/-- A string literal. -/
def string : Recogniser Kind := optionally CharClass.doubleQuote.accepts (stringFrom 0)

/-- The operators of two characters. -/
def pairs : List (Char × Char) := [('!', '='), ('=', '='), ('&', '&'), ('|', '|')]

/-- An operator: a pair if there is one, else a single character.  At the end of the
input it takes nothing and succeeds. -/
def operator : Recogniser Kind
  | [] => ⟨0, .ok .operator⟩
  | [_] => ⟨1, .ok .operator⟩
  | c :: d :: _ => if pairs.contains (c, d) then ⟨2, .ok .operator⟩ else ⟨1, .ok .operator⟩

/-- The recogniser that a first character calls for. -/
def startingWith (c : Char) : Recogniser Kind :=
  if CharClass.identifierStart.accepts c then identifier
  else if CharClass.numberStart.accepts c then number
  else if CharClass.singleQuote.accepts c then character
  else if CharClass.doubleQuote.accepts c then string
  else operator

/-- Any token. -/
def token : Recogniser Kind
  | [] => ⟨0, .error .noToken⟩
  | c :: rest => startingWith c (c :: rest)

/-! ## Progress -/

theorem taken_optionally_pos {α : Type} {p : Char → Bool} {next : Recogniser α} {c : Char}
    (h : p c = true) (rest : Text) : 0 < (optionally p next (c :: rest)).taken := by
  simp only [optionally, h, if_true, Reading.taken_after]
  omega

/-- A number that starts with a digit takes it, unless it has a needless zero. -/
theorem taken_unsigned_pos {c : Char} {rest : Text} {kind : Kind}
    (hc : CharClass.digit.accepts c = true)
    (h : (unsigned (c :: rest)).verdict = .ok kind) : 0 < (unsigned (c :: rest)).taken := by
  revert h
  have hpos : 0 < ((c :: rest).takeWhile CharClass.digit.accepts).length := by
    simp [hc]
  simp only [unsigned]
  split
  · intro h; cases h
  · unfold numberFrom
    split <;> intro _ <;> simp only [Reading.taken_after] <;> omega

/-- A recogniser that was called for by the first character and succeeds takes at least
that character. -/
theorem taken_token_pos {c : Char} {rest : Text} {kind : Kind}
    (h : (token (c :: rest)).verdict = .ok kind) : 0 < (token (c :: rest)).taken := by
  revert h
  simp only [token, startingWith]
  split
  · intro _; exact taken_optionally_pos ‹_› rest
  split
  · rename_i hnum
    intro h
    cases hminus : CharClass.minus.accepts c with
    | true => exact taken_optionally_pos hminus rest
    | false =>
      have hdigit : CharClass.digit.accepts c = true := by
        simp only [CharClass.numberStart, CharClass.digit, CharClass.minus, CharClass.accepts,
          List.contains_eq_mem, List.mem_append, List.mem_singleton, decide_eq_true_eq,
          beq_eq_false_iff_ne, ne_eq, List.cons.injEq, and_true] at hnum hminus ⊢
        exact hnum.resolve_right fun heq => hminus heq.symm
      have hnumber : number (c :: rest) = unsigned (c :: rest) := by
        simp [number, optionally, hminus]
      rw [hnumber] at h ⊢
      exact taken_unsigned_pos hdigit h
  split
  · intro _; exact taken_optionally_pos ‹_› rest
  split
  · intro _; exact taken_optionally_pos ‹_› rest
  · intro _
    cases rest with
    | nil => simp [operator]
    | cons d rest => simp only [operator]; split <;> simp

end Recogniser
end Lexis
