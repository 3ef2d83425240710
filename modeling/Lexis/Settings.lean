/-
# Settings

How a run prints its tokens.  The environment is read first, and the options of the
command line are put on top of it.  Values of the environment are trimmed and taken in
lower case; a value that is not known is as good as none.
-/

import Lexis.Listing
import Lexis.Text.Blank

namespace Lexis

/-- The variables of the environment that matter, where they are set. -/
structure Environment where
  format : Option Text := none
  locations : Option Text := none
  verbose : Option Text := none
deriving DecidableEq, Repr

/-- How a run prints. -/
structure Settings where
  format : Format := .text
  locations : Bool := false
  verbose : Bool := false
deriving DecidableEq, Repr

namespace Settings

/-- The words for yes. -/
def yes : List Text := ["1".toList, "true".toList, "yes".toList, "on".toList]

/-- The words for no. -/
def no : List Text := ["0".toList, "false".toList, "no".toList, "off".toList]

/-- A value as it is compared. -/
def normal (value : Text) : Text := Text.lower (Text.trim value)

/-- What a value says about a switch, if it is known. -/
def flag? (value : Text) : Option Bool :=
  if yes.contains (normal value) then some true
  else if no.contains (normal value) then some false
  else none

/-- What a value says about the form of a listing, if it is known. -/
def format? (value : Text) : Option Format := Format.ofName? (normal value)

/-- The settings of an environment. -/
def ofEnvironment (e : Environment) : Settings where
  format := (e.format.bind format?).getD .text
  locations := (e.locations.bind flag?).getD false
  verbose := (e.verbose.bind flag?).getD false

end Settings
end Lexis
