/-
# Texts

A text is the list of its characters, so that every index, length and column of
the library counts characters.  Texts of several lines are kept as a list of
lines and put together at the end.
-/

namespace Lexis

/-- A text, character by character. -/
abbrev Text := List Char

namespace Text

/-- The lines one after another, with a line feed between neighbours and none at
the end. -/
def unlines (lines : List Text) : Text := List.intercalate ['\n'] lines

/-- The texts one after another, with a comma and a blank between neighbours. -/
def commaSeparated (items : List Text) : Text := List.intercalate [',', ' '] items

/-- The words one after another, with a blank between neighbours. -/
def unwords (words : List Text) : Text := List.intercalate [' '] words

/-- Whether `part` stands somewhere in a text as a contiguous piece.  The empty
text stands in every text. -/
def occursIn (part : Text) : Text → Bool
  | [] => part.isEmpty
  | c :: rest => part.isPrefixOf (c :: rest) || occursIn part rest

/-- A single character stands in a text exactly when it is one of its members. -/
theorem occursIn_singleton (c : Char) (t : Text) : occursIn [c] t = t.contains c := by
  induction t with
  | nil => rfl
  | cons d rest ih => simp only [occursIn, List.isPrefixOf, Bool.and_true, ih, List.contains_cons]

end Text
end Lexis
