/-
# Arguments of the command

The words of a command line are options and operands; there is at most one operand, the
file to read.

| option | value |
| --- | --- |
| `-f`, `--format` | a form of listing |
| `--json`, `--locations`, `-v`, `--verbose`, `--version`, `--help` | none |

Options and operands may be mixed.  A word is an option if it starts with `-` and is
longer than that; `--` ends the options.  A long option takes its value after `=` or from
the next word, whatever that is.  Short options may share a word, and the rest of a word
after `-f` is its value.
-/

import Lexis.Text
import Lexis.Text.Quoted

namespace Lexis

/-- What the command may be asked to print in place of tokens. -/
inductive Notice where
  | help
  | version
deriving DecidableEq, Repr

/-- The options without a value. -/
inductive Switch where
  | json
  | locations
  | verbose
  | notice (notice : Notice)
deriving DecidableEq, Repr

/-- What is wrong with a command line. -/
inductive UsageFault where
  /-- A value was given to an option that takes none. -/
  | needlessValue (option : Text)
  /-- The words end where an option takes its value. -/
  | missingValue (option : Text)
  | unknownOption (option : Text)
  | unknownFormat (value : Text)
  | missingFile (word : Text)
  | directory (word : Text)
  /-- More operands than the one file. -/
  | extraOperands (words : List Text)
deriving DecidableEq, Repr

/-- What the words of a command line say, before any value is looked at. -/
structure Arguments where
  /-- The value of the last `--format`. -/
  format : Option Text := none
  json : Bool := false
  locations : Bool := false
  verbose : Bool := false
  /-- The first of `--help` and `--version`. -/
  notice : Option Notice := none
  operands : List Text := []
deriving DecidableEq, Repr

namespace Arguments

/-- Turns on a switch. -/
def turnOn (a : Arguments) : Switch → Arguments
  | .json => { a with json := true }
  | .locations => { a with locations := true }
  | .verbose => { a with verbose := true }
  | .notice notice => { a with notice := a.notice.or (some notice) }

/-- The long option for a listing's form. -/
def formatOption : Text := "--format".toList

/-- The long options without a value. -/
def longSwitches : List (Text × Switch) :=
  [("--json".toList, .json), ("--locations".toList, .locations), ("--verbose".toList, .verbose),
    ("--version".toList, .notice .version), ("--help".toList, .notice .help)]

/-- The switch of a long option. -/
def longSwitch? (name : Text) : Option Switch :=
  (longSwitches.find? fun entry => entry.1 == name).map Prod.snd

/-- What one word asks for. -/
inductive Word where
  | operand
  /-- All words after this one are operands. -/
  | endOfOptions
  | switches (switches : List Switch)
  | format (switches : List Switch) (value : Text)
  /-- The next word is the value of the named option. -/
  | formatNext (switches : List Switch) (option : Text)
  | fault (fault : UsageFault)
deriving DecidableEq, Repr

/-- Reads the letters of a word with short options, after the switches before them, last
first. -/
def shortOptions (before : List Switch) : Text → Word
  | [] => .switches before.reverse
  | 'v' :: letters => shortOptions (.verbose :: before) letters
  | 'f' :: [] => .formatNext before.reverse ['-', 'f']
  | 'f' :: value => .format before.reverse value
  | letter :: _ => .fault (.unknownOption ['-', letter])

/-- Reads a word that starts with `-` and goes on.  Long options are looked for first. -/
def optionWord (word : Text) : Word :=
  let name := word.takeWhile (· != '=')
  let value := (word.dropWhile (· != '=')).tail?
  if name = formatOption then
    match value with
    | some value => .format [] value
    | none => .formatNext [] name
  else
    match longSwitch? name, value with
    | some switch, none => .switches [switch]
    | some _, some _ => .fault (.needlessValue name)
    | none, _ =>
      match word with
      | '-' :: '-' :: _ => .fault (.unknownOption name)
      | _ => shortOptions [] word.tail

/-- Reads one word. -/
def Word.ofText : Text → Word
  | ['-', '-'] => .endOfOptions
  | '-' :: c :: rest => optionWord ('-' :: c :: rest)
  | _ => .operand

/-- Reads the words from left to right, on top of what was read before them. -/
def readOnto (a : Arguments) : List Text → Except UsageFault Arguments
  | [] => .ok a
  | word :: words =>
    match Word.ofText word with
    | .operand => readOnto { a with operands := a.operands ++ [word] } words
    | .endOfOptions => .ok { a with operands := a.operands ++ words }
    | .switches switches => readOnto (switches.foldl turnOn a) words
    | .format switches value =>
      readOnto { switches.foldl turnOn a with format := some value } words
    | .formatNext switches option =>
      match words with
      | [] => .error (.missingValue option)
      | value :: words => readOnto { switches.foldl turnOn a with format := some value } words
    | .fault fault => .error fault

/-- Reads a command line. -/
def read (words : List Text) : Except UsageFault Arguments := readOnto {} words

end Arguments

namespace UsageFault

/-- The wording of a fault, without the word that starts every such line. -/
def message : UsageFault → Text
  | needlessValue option =>
    "Option ".toList ++ Quoted.quote option ++ " does not take a value.".toList
  | missingValue option =>
    "Option ".toList ++ Quoted.quote option ++ " requires an argument.".toList
  | unknownOption option => "No such option: ".toList ++ option
  | unknownFormat value =>
    "Invalid value for '-f' / '--format': ".toList ++ Quoted.quote value ++
      " is not one of 'text', 'json'.".toList
  | missingFile word =>
    "Invalid value for '[INPUT_FILE]': File ".toList ++ Quoted.quote word ++
      " does not exist.".toList
  | directory word =>
    "Invalid value for '[INPUT_FILE]': File ".toList ++ Quoted.quote word ++
      " is a directory.".toList
  | extraOperands words =>
    let noun :=
      match words with
      | [_] => "Got unexpected extra argument (".toList
      | _ => "Got unexpected extra arguments (".toList
    noun ++ Text.unwords words ++ [')']

/-- Whether the usage of the command is shown before the fault.  It is not where an
option and its value do not go together. -/
def showsUsage : UsageFault → Bool
  | needlessValue _ | missingValue _ => false
  | _ => true

end UsageFault
end Lexis
