import ImportClosure.CommandLine.Run
import ImportClosure.FileTree.Snapshot

/-!
# `ImportClosure.Main`: the command line

The program reads a snapshot of its host from standard input, a JSON object with the members
`cwd`, the working directory; `environment`, an object of variables; and `files`, the files
by path as `FileTree.putSnapshot` reads them. Then it runs the command line that it is given.
-/

set_option autoImplicit false

namespace ImportClosure.CommandLine

/-- The environment variables that a JSON value lists. -/
def variablesOf (value : Json.Value) : List (Text × Text) :=
  (value.asObject?.getD []).filterMap fun (name, v) => v.asText?.map (name, ·)

/-- The host that a snapshot describes. -/
def Host.ofSnapshot (value : Json.Value) : Host :=
  let cwd := ((value.member? "cwd".toList).bind Json.Value.asText?).getD ['/']
  let empty : FileTree := ⟨.empty, cwd⟩
  { tree := (empty.putFolder cwd).putSnapshot cwd ((value.member? "files".toList).getD .null)
    environment := variablesOf ((value.member? "environment".toList).getD .null)
    broken := [] }

/-- The words for an abort. -/
def Abort.message : Abort Settings.SettingsError → Text
  | settings e => e.message
  | level .format => "the log level BASIC_FORMAT is reserved".toList
  | level .styles => "the log level _STYLES is reserved".toList
  | instant e => e.message

/-- The outcome of a run on a snapshot. An abort is reported and ends with exit code 1. -/
def runOnSnapshot (snapshot : Text) (arguments : List Text) : Outcome :=
  match Json.read? snapshot with
  | none => ⟨1, [], "the snapshot is no JSON text\n".toList⟩
  | some value =>
    match run (Host.ofSnapshot value) arguments with
    | .ok outcome => outcome
    | .error abort => ⟨1, [], abort.message ++ ['\n']⟩

end ImportClosure.CommandLine

open ImportClosure in
/-- Runs the command line on the snapshot in standard input. -/
def main (arguments : List String) : IO UInt32 := do
  let snapshot ← (← IO.getStdin).readToEnd
  let outcome := CommandLine.runOnSnapshot snapshot.toList (arguments.map String.toList)
  (← IO.getStdout).putStr (String.ofList outcome.output)
  (← IO.getStderr).putStr (String.ofList outcome.errors)
  return UInt32.ofNat outcome.code
