/-
# Diagnostics

A complaint is shown with its place, the line it is about and a caret under the offending
character:

    program:3:11: error: expected digit after decimal point
        let x = 1.;
                  ^
    hint: a decimal literal cannot end in '.'

The line and the caret are set in by four blanks.  Tabs before the caret are repeated, so
that it stays in its column whatever the width of a tab.
-/

import Lexis.Fault
import Lexis.Location

namespace Lexis
namespace Diagnostic

/-- What stands before the line shown and before its caret. -/
def indent : Text := [' ', ' ', ' ', ' ']

/-- A blank as wide as a character. -/
def shadow (c : Char) : Char := if c = '\t' then '\t' else ' '

/-- The caret line under a line of text, with so many characters before the caret. -/
def caretLine (line : Text) (before : Nat) : Text :=
  indent ++ (line.take before).map shadow ++ ['^']

/-- A complaint about a named source. -/
def render (name source : Text) (c : Complaint) : Except OutOfRange Text := do
  let location ← Location.ofIndex name source c.index
  let line := lineText source c.index
  return Text.unlines
    ([location.render ++ ": error: ".toList ++ c.message,
      indent ++ line,
      caretLine line (location.column - 1).toNat] ++ c.hintLines)

end Diagnostic
end Lexis
