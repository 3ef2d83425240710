/-
# The program

Carries the arguments, the environment, the named file and the standard input to
`Command`, and the outcome back.
-/

import Lexis.Command

namespace Lexis
namespace Program

/-- What a name leads to on disk: a directory can be opened but not read. -/
def look (word : Text) : IO FileEntry := do
  match ← (IO.FS.Handle.mk (String.ofList word) .read).toBaseIO with
  | .error _ => return .missing
  | .ok handle =>
    match ← handle.readBinToEnd.toBaseIO with
    | .error _ => return .directory
    | .ok bytes => return .file bytes.toList

/-- The entry of the file that a command line names, if it names one. -/
def operandEntry (words : List Text) : IO FileEntry :=
  match Arguments.read words with
  | .ok a =>
    match a.operands.head? with
    | some word => look word
    | none => return .missing
  | .error _ => return .missing

/-- The value of an environment variable. -/
def setting (name : String) : IO (Option Text) := return (← IO.getEnv name).map String.toList

/-- The variables of the environment. -/
def environment : IO Environment := do
  let format ← setting "PLCLEX_FORMAT"
  let locations ← setting "PLCLEX_LOCATIONS"
  let verbose ← setting "PLCLEX_VERBOSE"
  return ⟨format, locations, verbose⟩

/-- Runs the command; the standard input is read only if it is the source. -/
def outcome (words : List Text) : IO Outcome := do
  let entry ← operandEntry words
  match Command.prepare (fun _ => entry) words with
  | .error outcome => return outcome
  | .ok invocation =>
    let stdin ←
      match invocation.input with
      | .standard => (·.toList) <$> (← IO.getStdin).readBinToEnd
      | .file _ _ => pure []
    return Command.execute (← environment) stdin invocation

end Program
end Lexis

def main (args : List String) : IO UInt32 := do
  let outcome ← Lexis.Program.outcome (args.map String.toList)
  IO.print (String.ofList outcome.stdout)
  IO.eprint (String.ofList outcome.stderr)
  return outcome.status.code.toUInt32
