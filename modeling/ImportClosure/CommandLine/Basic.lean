import ImportClosure.CommandLine.Threshold
import ImportClosure.CommandLine.Usage
import ImportClosure.Report
import ImportClosure.Walk.Project

/-!
# `ImportClosure.CommandLine.Basic`: one run of the command line

A run reads its arguments, loads bindings into its environment and makes its settings, accepts
the entry, walks from it and writes one line with what it has found. It ends with the exit code
and the two texts that it writes: the line alone on the one side, log entries and complaints on
the other.

Bindings and settings are read by others, as modules are parsed by others. `Surroundings` says
what they come to, next to the files that are there. Nothing is asked of them: each may fail,
with errors of a type of its own.

A run cannot end in this way, but is aborted, if the bindings cannot be loaded or no settings can
be made, the name of the log level is reserved, or a path cannot be dated.
-/

set_option autoImplicit false

namespace ImportClosure.CommandLine

/-- Environment variables with their values. -/
abbrev Environment := List (Text × Text)

/-- What a run finds around it. -/
structure Surroundings (ε : Type) where
  tree : FileTree
  grammars : Grammars
  environment : Environment
  /-- The environment after bindings are loaded into it, and the complaints about them. -/
  loadBindings : Environment → Except ε Environment × Text
  /-- The settings that are made from an environment, and the complaints about their sources. -/
  makeSettings : Environment → Except ε Settings × Text

namespace Surroundings

variable {ε : Type}

/-- Loads the bindings and then makes the settings: the settings and all complaints. -/
def prepare (surroundings : Surroundings ε) : Except ε Settings × Text :=
  match surroundings.loadBindings surroundings.environment with
  | (.error error, complaints) => (.error error, complaints)
  | (.ok environment, complaints) =>
    let (settings, more) := surroundings.makeSettings environment
    (settings, complaints ++ more)

/-- The settings of a run. -/
def settings (surroundings : Surroundings ε) : Except ε Settings := surroundings.prepare.1

/-- What is written while the settings of a run are made. -/
def complaints (surroundings : Surroundings ε) : Text := surroundings.prepare.2

end Surroundings

/-- How a run ends. -/
structure Outcome where
  code : Nat
  output : Text
  errors : Text
  deriving DecidableEq, Repr

/-- Why a run is aborted. -/
inductive Abort (ε : Type) where
  | settings (error : ε)
  | level (name : Reserved)
  | instant (error : Report.OutOfRange)
  deriving DecidableEq, Repr

/-- What a run lists: the dependencies of the entry, with the root; nothing for an entry that
is missing or not recognized. -/
structure Found where
  root : Option Path
  paths : List Path
  deriving DecidableEq, Repr

variable {ε : Type}

/-- Finds what a run lists, unless its arguments are refused. -/
def findPaths (surroundings : Surroundings ε) (settings : Settings) (root entry : Path) :
    Traced (Except Entry.Refusal Found) := do
  match ← Entry.resolve surroundings.tree settings root entry with
  | .error refusal =>
    if refusal.isMissingArgument then return .error refusal
    Traced.write
      ⟨settings.toolName, .info, "Nothing to resolve: ".toList ++ refusal.message⟩
    return .ok ⟨none, []⟩
  | .ok accepted =>
    let walker := Walker.new accepted.root settings surroundings.grammars
    let walker ← walker.walk surroundings.tree accepted.entry
    return .ok ⟨some accepted.root, walker.dependencies⟩

/-- The line for what has been found. -/
def outputLine (tree : FileTree) (arguments : Arguments) (found : Found) :
    Except Report.OutOfRange Text := do
  match found.root with
  | none => return Report.ofPaths []
  | some root =>
    if arguments.withMtimes then
      return Report.ofFiles (← Report.collect tree found.paths root arguments.includeManifest)
    else if arguments.includeManifest then
      return Report.ofPaths ((← Report.collect tree found.paths root true).map (·.path))
    else return Report.ofPaths found.paths

/-- The complaint about arguments that are refused. -/
def refusalLine (refusal : Entry.Refusal) : Text :=
  "Missing arguments: resolve-imports <root> <file> (".toList ++ refusal.message ++
    ")\n".toList

/-- The name of the log level: the one on the command line unless it is empty. -/
def levelName (arguments : Arguments) (settings : Settings) : Text :=
  match arguments.logLevel with
  | some (c :: name) => c :: name
  | _ => settings.logLevel

/-- A run with the arguments read. -/
def runWith (surroundings : Surroundings ε) (arguments : Arguments) :
    Except (Abort ε) Outcome := do
  let settings ← surroundings.settings.mapError Abort.settings
  let threshold ← (Threshold.ofName (levelName arguments settings)).mapError Abort.level
  let found := findPaths surroundings settings arguments.root arguments.entry
  let errors := surroundings.complaints ++ logLines threshold found.log
  match found.value with
  | .error refusal => return ⟨1, [], errors ++ refusalLine refusal⟩
  | .ok found =>
    let output ← (outputLine surroundings.tree arguments found).mapError Abort.instant
    return ⟨0, output, errors⟩

/-- A run. -/
def Surroundings.run (surroundings : Surroundings ε) (arguments : List Text) :
    Except (Abort ε) Outcome :=
  match Arguments.parse arguments with
  | .error .help => .ok ⟨0, help, []⟩
  | .error (.fault fault) => .ok ⟨2, [], complaint fault⟩
  | .ok arguments => runWith surroundings arguments

end ImportClosure.CommandLine
