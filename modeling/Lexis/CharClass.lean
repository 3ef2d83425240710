/-
# Character classes

The classes that the lexer looks for.  Only ASCII letters and digits count as letters
and digits.  A class is usually asked about one character (`accepts`); asked about a
text (`contains`), a set holds texts of one character only, and an exclusion leaves
out every contiguous piece of the excluded characters, so also the empty text.
-/

import Lexis.Text
import Lexis.Text.Quoted

namespace Lexis

/-- A class of characters. -/
inductive CharClass where
  /-- The characters of a list. -/
  | oneOf (members : List Char)
  /-- All characters but those of a list. -/
  | noneOf (excluded : List Char)
  /-- One fixed text; a class of characters if that has length one. -/
  | exactly (expected : Text)
  /-- Every character. -/
  | any
deriving DecidableEq, Repr

namespace CharClass

/-- Whether a character belongs to a class. -/
def accepts : CharClass → Char → Bool
  | oneOf members, c => members.contains c
  | noneOf excluded, c => !excluded.contains c
  | exactly expected, c => expected == [c]
  | any, _ => true

/-- Whether a text belongs to a class. -/
def contains : CharClass → Text → Bool
  | oneOf members, [c] => members.contains c
  | oneOf _, _ => false
  | noneOf excluded, t => !t.occursIn excluded
  | exactly expected, t => expected == t
  | any, _ => true

/-- The two questions agree on a single character. -/
theorem contains_singleton (k : CharClass) (c : Char) : k.contains [c] = k.accepts c := by
  cases k <;> simp [contains, accepts, Text.occursIn_singleton]

/-- The name of the class of one fixed text. -/
def nameExactly (expected : Text) : Text := "is_".toList ++ Quoted.quote expected

/-- The letters of ASCII. -/
def letters : List Char := "abcdefghijklmnopqrstuvwxyzABCDEFGHIJKLMNOPQRSTUVWXYZ".toList

/-- The digits of ASCII. -/
def digits : List Char := "0123456789".toList

/-- What separates tokens: space, backspace, line feed, carriage return and tab. -/
def whitespace : CharClass := oneOf [' ', '\x08', '\n', '\r', '\t']

/-- What an identifier starts with: a letter or `@`. -/
def identifierStart : CharClass := oneOf (letters ++ ['@'])

/-- What an identifier goes on with: a letter, a digit, `_` or `-`. -/
def identifierPart : CharClass := oneOf (letters ++ digits ++ ['_', '-'])

/-- A digit. -/
def digit : CharClass := oneOf digits

/-- What a number starts with: a digit or its sign. -/
def numberStart : CharClass := oneOf (digits ++ ['-'])

/-- What a backslash can be followed by inside a literal. -/
def escapeTarget : CharClass := oneOf ['b', 'n', 'r', 't', '\'', '"', '\\']

/-- What stands for itself in a character literal; a backslash does not come this far. -/
def characterBody : CharClass := noneOf ['\'', '\n', '\r']

/-- What stands for itself in a string literal. -/
def stringBody : CharClass := noneOf ['\\', '"', '\n', '\r']

/-- The sign of a number. -/
def minus : CharClass := exactly ['-']

/-- The digit zero. -/
def zero : CharClass := exactly ['0']

/-- The decimal point. -/
def point : CharClass := exactly ['.']

/-- The quote around a character literal. -/
def singleQuote : CharClass := exactly ['\'']

/-- The quote around a string literal. -/
def doubleQuote : CharClass := exactly ['"']

/-- The start of an escape. -/
def backslash : CharClass := exactly ['\\']

end CharClass
end Lexis
