/-
# Listings

The tokens of a source for a reader or for another program, on request with the line and
column of each:

| format | form |
| --- | --- |
| text | one line a token: index, maybe line and column, kind, quoted literal |
| json | an array of objects with the same members |

In the text the columns are aligned; a value too wide for its column is not cut.  A token is
given with any index.  It cannot be listed if its place is to be shown and is not in the source,
or if its index has more digits than may be written.
-/

import Lexis.Json
import Lexis.Location
import Lexis.Token

namespace Lexis

/-- The forms of a listing. -/
inductive Format where
  | text
  | json
deriving DecidableEq, Repr

namespace Format

/-- All forms. -/
def all : List Format := [text, json]

/-- The name of a form. -/
def name : Format → Text
  | text => "text".toList
  | json => "json".toList

/-- The form of a given name. -/
def ofName? (name : Text) : Option Format := all.find? fun format => format.name == name

theorem ofName?_name (format : Format) : ofName? format.name = some format := by
  cases format <;> decide

end Format

/-- A token with its place, if that is to be shown. -/
structure Entry where
  token : Token
  location : Option Location
deriving DecidableEq, Repr

namespace Entry

/-- The line of a token in a text listing. -/
def line (e : Entry) : Text :=
  let place :=
    match e.location with
    | none => []
    | some l =>
      [' ', ' '] ++ Decimal.ofInt l.line ++ [':'] ++ (Decimal.ofInt l.column).rightpad 4 ' '
  (Decimal.ofInt e.token.index).leftpad 6 ' ' ++ place ++ [' ', ' '] ++
    e.token.kind.name.rightpad 10 ' ' ++ [' ', ' '] ++ Quoted.quote e.token.literal

/-- The members of a token in a JSON listing. -/
def record (e : Entry) : Json.Record :=
  let place :=
    match e.location with
    | none => []
    | some l => [("line".toList, .integer l.line), ("column".toList, .integer l.column)]
  [("type".toList, .text e.token.kind.name), ("literal".toList, .text e.token.literal),
    ("index".toList, .integer e.token.index)] ++ place

end Entry

namespace Listing

/-- The entry of a token, with its place if `located`.  An index in the source may always be
written, as no source has that many characters. -/
def entry (source : Text) (located : Bool) (t : Token) : Except OutOfRange Entry :=
  if located then
    (Location.ofIndex [] source t.index).map fun l => ⟨t, some l⟩
  else if Decimal.isWritable t.index ∨ 0 ≤ t.index ∧ t.index ≤ source.length then .ok ⟨t, none⟩
  else .error ⟨t.index, source.length⟩

/-- The entries in a form. -/
def ofEntries : Format → List Entry → Text
  | .text, entries => Text.unlines (entries.map Entry.line)
  | .json, entries => Json.document (entries.map Entry.record)

/-- The listing of tokens.  The first that cannot be listed is to blame. -/
def render (format : Format) (source : Text) (located : Bool) (tokens : List Token) :
    Except OutOfRange Text :=
  (tokens.mapM (entry source located)).map (ofEntries format)

end Listing
end Lexis
