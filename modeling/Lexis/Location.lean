/-
# Lines and columns

Lines end with a line feed and are numbered from one, as are the columns, which count
characters.  The carriage returns at the end of a line, before its line feed or at the end of
the source, are counted, but not shown.
-/

import Lexis.Text.Decimal

namespace Lexis

/-- A place in a named source, for a reader. -/
structure Location where
  name : Text
  line : Int
  column : Int
deriving DecidableEq, Repr

/-- An index that no source of this length has. -/
structure OutOfRange where
  index : Int
  length : Nat
deriving DecidableEq, Repr

/-- The wording for an index out of range, which shows it if it may be written. -/
def OutOfRange.message (e : OutOfRange) : Text :=
  if Decimal.isWritable e.index then
    "index ".toList ++ Decimal.ofInt e.index ++ " out of range for source of length ".toList ++
      Decimal.ofNat e.length
  else Decimal.tooLong

namespace Location

/-- Name, line and column. -/
def render (l : Location) : Text :=
  l.name ++ [':'] ++ Decimal.ofInt l.line ++ [':'] ++ Decimal.ofInt l.column

/-- The name of a source that has none. -/
def unnamed : Text := "<input>".toList

/-- The end of a text after its last line feed; all of it if there is none. -/
def lastLine (t : Text) : Text := (t.reverse.takeWhile (· != '\n')).reverse

/-- Where a text leaves off: after so many lines and characters of the last line. -/
def ofText (name before : Text) : Location where
  name := name
  line := before.count '\n' + 1
  column := (lastLine before).length + 1

/-- The place of an index; the length of the source stands for its end. -/
def ofIndex (name source : Text) (index : Int) : Except OutOfRange Location :=
  if 0 ≤ index ∧ index ≤ source.length then .ok (ofText name (source.take index.toNat))
  else .error ⟨index, source.length⟩

end Location

/-- An index as the end of a piece of a source: below zero it counts from the end of the
source, and it is cut to the source. -/
def clampIndex (source : Text) (index : Int) : Nat :=
  min (if index < 0 then index + source.length else index).toNat source.length

/-- The text without the carriage returns at its end. -/
def dropTrailingReturns (t : Text) : Text := (t.reverse.dropWhile (· == '\r')).reverse

/-- The line around an index, without its line feed and the carriage returns at its end. -/
def lineText (source : Text) (index : Int) : Text :=
  let before := source.take (clampIndex source index)
  let after := source.drop (clampIndex source index)
  dropTrailingReturns (Location.lastLine before ++ after.takeWhile (· != '\n'))

end Lexis
