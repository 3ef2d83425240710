/-
# Lexical faults

Why a source cannot be read, with the wording of each cause:

| fault | arises at |
| --- | --- |
| `noToken` | the end of the input, when a token is asked for |
| `leadingZero` | the digit after a zero that starts a number |
| `trailingPoint` | what follows a decimal point and is no digit |
| `characterBody` | what follows the opening quote and is no character or escape |
| `characterUnclosed` | what stands in place of the closing quote |
| `stringBody` | a line break inside a string |
| `stringUnclosed` | the end of the input inside a string |
| `escapeStart` | what stands in place of the backslash of an escape |
| `escapeTarget` | what follows a backslash and makes no escape |

A `Complaint` is what is told to the user: a message, an index and maybe a hint.
-/

import Lexis.Text.Decimal
import Lexis.Token

namespace Lexis

/-- The causes of failure. -/
inductive Fault where
  | noToken
  | leadingZero
  | trailingPoint
  | characterBody
  | characterUnclosed
  | stringBody
  | stringUnclosed
  | escapeStart
  | escapeTarget
deriving DecidableEq, Repr

namespace Fault

/-- What is wrong. -/
def message : Fault → Text
  | noToken => "invalid character".toList
  | leadingZero => "leading zero in number literal".toList
  | trailingPoint => "expected digit after decimal point".toList
  | characterBody => "invalid character literal".toList
  | characterUnclosed => "expected closing quote in character literal".toList
  | stringBody => "invalid character in string literal".toList
  | stringUnclosed => "unterminated string literal".toList
  | escapeStart => "expected '\\' to start escape sequence".toList
  | escapeTarget => "invalid escape sequence".toList

/-- How to mend it. -/
def hint : Fault → Option Text
  | noToken => none
  | leadingZero => some "remove the leading '0'".toList
  | trailingPoint => some "a decimal literal cannot end in '.'".toList
  | characterBody => some "a character literal holds exactly one character or escape".toList
  | characterUnclosed => some "add closing \"'\" to complete the character literal".toList
  | stringBody | stringUnclosed =>
    some "strings must be closed on the same line; use \\n for newlines".toList
  | escapeStart => none
  | escapeTarget => some "valid escapes are \\b \\n \\r \\t \\' \\\" \\\\".toList

/-- How far beyond the characters taken the offending one stands: a leading zero is
taken back to the zero, and the digit after it is to blame. -/
def offset : Fault → Nat
  | leadingZero => 1
  | _ => 0

end Fault

/-- What the user is told about a fault. -/
structure Complaint where
  message : Text
  index : Int
  hint : Option Text
deriving DecidableEq, Repr

namespace Complaint

/-- The complaint about a fault at an index. -/
def ofFault (fault : Fault) (index : Int) : Complaint := ⟨fault.message, index, fault.hint⟩

/-- The line of the hint.  An empty hint has none. -/
def hintLines (c : Complaint) : List Text :=
  match c.hint with
  | none | some [] => []
  | some hint => ["hint: ".toList ++ hint]

/-- The complaint without a view of the source. -/
def text (c : Complaint) : Text :=
  Text.unlines
    (("error at index ".toList ++ Decimal.ofInt c.index ++ [':', ' '] ++ c.message) :: c.hintLines)

end Complaint

/-- A failed attempt to read: the fault, the index of the offending character, and the
tokens read before it in the same run. -/
structure Failure where
  fault : Fault
  index : Nat
  tokens : List Token := []
deriving DecidableEq, Repr

/-- What the user is told about a failure. -/
def Failure.complaint (f : Failure) : Complaint := .ofFault f.fault f.index

end Lexis
