/-
# The command

Lists the tokens of a file or of the standard input.  A run is a function of the words of
the command line, the environment, the files and the standard input; its outcome is a
status and what is written to the two output channels.

| status | code | when |
| --- | ---: | --- |
| `success` | 0 | all tokens were read, or a notice was asked for |
| `lexicalError` | 1 | the source has a lexical fault |
| `invalidArguments` | 2 | the command line is wrong, or the input is not UTF-8 |
| `internalError` | 3 | anything else |

What is said to the user goes through `Terminal.plain`; the lines of the log do not.
-/

import Lexis.Command.Arguments
import Lexis.Command.FileTree
import Lexis.Cursor
import Lexis.Diagnostic
import Lexis.Settings
import Lexis.Text.Terminal
import Lexis.Text.Utf8

namespace Lexis

/-- How a run ends. -/
inductive Status where
  | success
  | lexicalError
  | invalidArguments
  | internalError
deriving DecidableEq, Repr

/-- The exit code of a status. -/
def Status.code : Status → Nat
  | success => 0
  | lexicalError => 1
  | invalidArguments => 2
  | internalError => 3

/-- What a run leaves behind. -/
structure Outcome where
  status : Status
  stdout : Text := []
  stderr : Text := []
deriving DecidableEq, Repr

/-- A line for the user. -/
def say (t : Text) : Text := Terminal.plain t ++ ['\n']

/-- A line of the log. -/
def debug (t : Text) : Text := "DEBUG: ".toList ++ t ++ ['\n']

/-- Why a run cannot go on. -/
inductive Trouble where
  | lexical (complaint : Complaint)
  | fileMissing (message : Text)
  | fileForbidden (message : Text)
  | undecodable (fault : Utf8.Fault)
  | internal (message : Text)

namespace Trouble

/-- What stands for the trace of an error that left none. -/
def emptyTrace : Text := "NoneType: None\n".toList

/-- The outcome for an input that cannot be read. -/
def unreadable (message : Text) : Outcome where
  status := .invalidArguments
  stderr := say ("Error: ".toList ++ message)

/-- The outcome for an internal error, with its trace if `verbose`. -/
def internalOutcome (message : Text) (verbose : Bool) : Outcome where
  status := .internalError
  stderr := say ("Internal error: ".toList ++ message) ++ if verbose then emptyTrace else []

/-- The outcome of a run in trouble.  A lexical fault is shown in its source, where that is
known. -/
def outcome (trouble : Trouble) (name : Text) (source : Option Text) (verbose : Bool) :
    Except OutOfRange Outcome :=
  match trouble, source with
  | .lexical complaint, some source =>
    (Diagnostic.render name source complaint).map fun shown =>
      { status := .lexicalError, stderr := say shown }
  | .lexical complaint, none => .ok { status := .lexicalError, stderr := say complaint.text }
  | .fileMissing message, _ => .ok (unreadable message)
  | .fileForbidden message, _ => .ok (unreadable message)
  | .undecodable fault, _ => .ok (unreadable fault.message)
  | .internal message, _ => .ok (internalOutcome message verbose)

end Trouble

namespace Command

/-- The usage of the command. -/
def usage : Text := "Usage: plclex [OPTIONS] [INPUT_FILE]".toList

/-- What is printed for each notice. -/
def notice : Notice → Text
  | .version => "plclex, version 1.0.0".toList
  | .help => Text.unlines
    [usage,
      [],
      "  Lex source code and print its tokens.".toList,
      [],
      "  INPUT_FILE is the source file to lex. Reads stdin when omitted or '-'.".toList,
      [],
      "  Examples:".toList,
      "      plclex program.plc              # One token per line".toList,
      "      plclex --json program.plc       # JSON array".toList,
      "      plclex --locations program.plc  # Include line:column".toList,
      "      echo 'x == 1' | plclex          # Lex from stdin".toList,
      [],
      "  Exit status is 1 when the source contains a lexical error; the diagnostic is".toList,
      "  printed to stderr with the offending position marked.".toList,
      [],
      "Options:".toList,
      "  -f, --format [text|json]  Output format (default: text, or $PLCLEX_FORMAT)".toList,
      "  --json                    Shorthand for --format json".toList,
      "  --locations               Show line:column for each token".toList,
      "  -v, --verbose             Verbose output".toList,
      "  --version                 Show the version and exit.".toList,
      "  --help                    Show this message and exit.".toList]

/-- The outcome for a wrong command line. -/
def refuse (fault : UsageFault) : Outcome where
  status := .invalidArguments
  stderr :=
    (if fault.showsUsage then say usage ++ say "Try 'plclex --help' for help.\n".toList else []) ++
      say ("Error: ".toList ++ fault.message)

/-- Where the source comes from. -/
inductive Input where
  | standard
  | file (name : Text) (bytes : List UInt8)
deriving DecidableEq, Repr

/-- The name of the standard input. -/
def standardName : Text := "<stdin>".toList

/-- The name shown for an input. -/
def Input.name : Input → Text
  | standard => standardName
  | file name _ => name

/-- The bytes of an input. -/
def Input.bytes (input : Input) (stdin : List UInt8) : List UInt8 :=
  match input with
  | standard => stdin
  | file _ bytes => bytes

/-- What a sound command line asks for. -/
structure Invocation where
  format : Option Format
  json : Bool
  locations : Bool
  verbose : Bool
  input : Input
deriving DecidableEq, Repr

/-- The settings of a run: the environment's, with the options on top. -/
def Invocation.settings (i : Invocation) (environment : Environment) : Settings :=
  let base := Settings.ofEnvironment environment
  { format := if i.json then .json else i.format.getD base.format
    locations := i.locations || base.locations
    verbose := i.verbose || base.verbose }

/-- Looks at the value of `--format`, letter case ignored. -/
def readFormat : Option Text → Except UsageFault (Option Format)
  | none => .ok none
  | some value =>
    match Format.ofName? (value.map Text.foldCase) with
    | some format => .ok (some format)
    | none => .error (.unknownFormat value)

/-- Looks for the file that is named.  A lone `-` is the standard input; so is a file whose
normal name is `-` or that of the standard input. -/
def readOperand (files : Text → FileEntry) : Option Text → Except UsageFault Input
  | none | some ['-'] => .ok .standard
  | some word =>
    match files word with
    | .missing => .error (.missingFile word)
    | .directory => .error (.directory word)
    | .file bytes =>
      let name := Path.normal word
      if name = ['-'] ∨ name = standardName then .ok .standard else .ok (.file name bytes)

/-- Looks at the values of a command line: the form of the listing, the file, and what is
too much. -/
def check (files : Text → FileEntry) (a : Arguments) : Except UsageFault Invocation := do
  let format ← readFormat a.format
  let input ← readOperand files a.operands.head?
  match a.operands.tail with
  | [] => return ⟨format, a.json, a.locations, a.verbose, input⟩
  | words => throw (.extraOperands words)

/-- What a command line comes to: a run, or an outcome without one. -/
def prepare (files : Text → FileEntry) (words : List Text) : Except Outcome Invocation :=
  match Arguments.read words with
  | .error fault => .error (refuse fault)
  | .ok a =>
    match a.notice with
    | some asked => .error { status := .success, stdout := say (notice asked) }
    | none => (check files a).mapError refuse

/-- What is said about a number of tokens. -/
def count (tokens : List Token) : Text := Decimal.ofNat tokens.length ++ " tokens".toList

/-- The log of a run. -/
def log (name source : Text) (result : Except Failure (List Token)) : Text :=
  debug ("Lexing ".toList ++ name) ++
    debug ("Lexing ".toList ++ Decimal.ofNat source.length ++ " characters".toList) ++
    match result with
    | .ok tokens => debug ("Lexed ".toList ++ count tokens)
    | .error failure =>
      debug ("Lexing failed after ".toList ++ count failure.tokens ++ [':', ' '] ++
        failure.fault.message ++ " at index ".toList ++ Decimal.ofNat failure.index)

/-- What a run that has read its source says, the log apart. -/
def answer (settings : Settings) (name source : Text) (result : Except Failure (List Token)) :
    Except OutOfRange Outcome :=
  match result with
  | .error failure =>
    (Trouble.lexical failure.complaint).outcome name (some source) settings.verbose
  | .ok tokens =>
    (Listing.render settings.format source settings.locations tokens).map fun listing =>
      { status := .success
        stdout := if listing.isEmpty then [] else say listing
        stderr := if settings.verbose then say (count tokens) else [] }

/-- A run on a source.  A listing or a diagnostic that cannot be placed in the source is an
internal error. -/
def runSource (settings : Settings) (name source : Text) : Outcome :=
  let result := lex source
  let outcome :=
    match answer settings name source result with
    | .ok outcome => outcome
    | .error e => Trouble.internalOutcome e.message settings.verbose
  if settings.verbose then { outcome with stderr := log name source result ++ outcome.stderr }
  else outcome

/-- A run on bytes. -/
def runBytes (settings : Settings) (name : Text) (bytes : List UInt8) : Outcome :=
  match Utf8.decode bytes with
  | .error fault => Trouble.unreadable fault.message
  | .ok source => runSource settings name source

/-- A run that the command line asks for. -/
def execute (environment : Environment) (stdin : List UInt8) (i : Invocation) : Outcome :=
  runBytes (i.settings environment) i.input.name (i.input.bytes stdin)

/-- The command. -/
def run (words : List Text) (environment : Environment) (files : Text → FileEntry)
    (stdin : List UInt8) : Outcome :=
  match prepare files words with
  | .error outcome => outcome
  | .ok invocation => execute environment stdin invocation

end Command
end Lexis
