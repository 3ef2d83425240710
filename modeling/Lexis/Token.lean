/-
# Tokens

A token is a piece of the source: its kind, its text as it stands there, and the index
of its first character.  Numbers and escapes are not interpreted, so the literal is all
that later stages need.
-/

import Lexis.Text.Decimal
import Lexis.Text.Quoted

namespace Lexis

/-- The kinds of token.  Keywords are identifiers, and every operator or punctuation
mark is an operator. -/
inductive Kind where
  | identifier
  | integer
  | decimal
  | character
  | string
  | operator
deriving DecidableEq, Repr

namespace Kind

/-- All kinds, in the order of their numbers. -/
def all : List Kind := [identifier, integer, decimal, character, string, operator]

/-- The name that listings show. -/
def name : Kind → Text
  | identifier => "IDENTIFIER".toList
  | integer => "INTEGER".toList
  | decimal => "DECIMAL".toList
  | character => "CHARACTER".toList
  | string => "STRING".toList
  | operator => "OPERATOR".toList

/-- The number of a kind, from one on. -/
def number : Kind → Nat
  | identifier => 1
  | integer => 2
  | decimal => 3
  | character => 4
  | string => 5
  | operator => 6

/-- The kind of a given name. -/
def ofName? (name : Text) : Option Kind := all.find? fun kind => kind.name == name

/-- A kind is found again by its name. -/
theorem ofName?_name (kind : Kind) : ofName? kind.name = some kind := by
  cases kind <;> decide

end Kind

/-- A token.  The lexer makes tokens with an index inside the source; a token given from
outside may carry any integer. -/
structure Token where
  kind : Kind
  literal : Text
  index : Int
deriving DecidableEq, Repr

namespace Token

/-- The index just past the last character. -/
def stop (t : Token) : Int := t.index + t.literal.length

/-- The token for a reader: kind, quoted literal and index. -/
def render (t : Token) : Text :=
  "Token(".toList ++
    Text.commaSeparated [t.kind.name, Quoted.quote t.literal, Decimal.ofInt t.index] ++ [')']

/-- A list of tokens for a reader, between brackets. -/
def renderAll (tokens : List Token) : Text :=
  '[' :: (Text.commaSeparated (tokens.map render) ++ [']'])

end Token
end Lexis
