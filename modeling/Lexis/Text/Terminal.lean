/-
# Control sequences of a terminal

Text meant for a pipe or a file has its control sequences taken out.  A sequence is
an escape character, an opening bracket, any number of parameter characters (digits,
`;` and `?`), and one letter.  An escape character that starts no sequence stays.
-/

import Lexis.Text

namespace Lexis
namespace Terminal

/-- The characters between the bracket and the closing letter. -/
def isParameter (c : Char) : Bool := c.isDigit || c = ';' || c = '?'

/-- What follows the control sequence that the text starts with, if it starts with
one. -/
def afterSequence? : Text → Option Text
  | '\x1b' :: '[' :: rest =>
    match rest.dropWhile isParameter with
    | letter :: after => if letter.isAlpha then some after else none
    | [] => none
  | _ => none

/-- A control sequence is not empty. -/
theorem length_afterSequence? {t after : Text} (h : afterSequence? t = some after) :
    after.length < t.length := by
  unfold afterSequence? at h
  split at h
  · rename_i rest
    split at h
    · rename_i letter tail heq
      split at h
      · cases h
        have hle := (List.dropWhile_sublist isParameter (l := rest)).length_le
        rw [heq] at hle
        simp only [List.length_cons] at hle ⊢
        omega
      · cases h
    · cases h
  · cases h

/-- Goes through a text with what was kept so far, last character first. -/
def plainOnto (kept : Text) (t : Text) : Text :=
  match t with
  | [] => kept.reverse
  | c :: rest =>
    match _h : afterSequence? (c :: rest) with
    | some after => plainOnto kept after
    | none => plainOnto (c :: kept) rest
termination_by t.length
decreasing_by
  · exact length_afterSequence? _h
  · simp

/-- The text without its control sequences. -/
def plain (t : Text) : Text := plainOnto [] t

end Terminal
end Lexis
