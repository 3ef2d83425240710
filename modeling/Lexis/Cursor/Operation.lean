/-
# Operations on a cursor

Everything that can be asked of a cursor, as data, so that statements can speak of any
sequence of requests.  A request that fails leaves a cursor too, and the next one goes
on from there.
-/

import Lexis.Cursor

namespace Lexis

/-- The recognisers that make a token. -/
inductive Rule where
  | token
  | identifier
  | number
  | character
  | string
  | operator
deriving DecidableEq, Repr

/-- The recogniser of a rule. -/
def Rule.recogniser : Rule → Recogniser Kind
  | token => Recogniser.token
  | identifier => Recogniser.identifier
  | number => Recogniser.number
  | character => Recogniser.character
  | string => Recogniser.string
  | operator => Recogniser.operator

/-- A request to a cursor. -/
inductive Operation where
  | has (offset : Int)
  | get (offset : Int)
  | advance
  | skip
  | emit (kind : Kind)
  | peek (pattern : List (Char → Bool))
  | accept (pattern : List (Char → Bool))
  | recognise (rule : Rule)
  | escape
  | lex

/-- What a cursor answers. -/
inductive Answer where
  | done
  | flag (value : Bool)
  | char (value : Char)
  | token (value : Token)
  | tokens (values : List Token)
  /-- There is no character at the index asked for. -/
  | absent (fault : IndexFault)
  | failed (failure : Failure)
deriving DecidableEq, Repr

namespace Answer

/-- The answer for a character that may be absent. -/
def ofChar : Except IndexFault Char → Answer
  | .ok value => char value
  | .error fault => absent fault

/-- The answer for a result that may be a failure. -/
def ofExcept {α : Type} (f : α → Answer) : Except Failure α → Answer
  | .ok value => f value
  | .error failure => failed failure

end Answer

namespace Cursor

/-- Carries out one request. -/
def perform (c : Cursor) : Operation → Answer × Cursor
  | .has offset => (.flag (c.has offset), c)
  | .get offset => (.ofChar (c.get offset), c)
  | .advance => (.done, c.advance)
  | .skip => (.done, c.skip)
  | .emit kind => (c.emit kind).map .token id
  | .peek pattern => (.flag (c.peek pattern), c)
  | .accept pattern => (c.accept pattern).map .flag id
  | .recognise rule => (c.recognise rule.recogniser).map (.ofExcept .token) id
  | .escape => c.escape.map (.ofExcept fun _ => .done) id
  | .lex => c.lex.map (.ofExcept .tokens) id

/-- Carries out requests one after another, with the cursor that each leaves. -/
def performAll (c : Cursor) : List Operation → List (Answer × Cursor)
  | [] => []
  | op :: ops =>
    let answered := c.perform op
    answered :: answered.2.performAll ops

end Cursor
end Lexis
