import ImportClosure.CommandLine.Basic
import ImportClosure.Settings.Sources
import ImportClosure.Syntax.Grammar

/-!
# `ImportClosure.CommandLine.Run`: runs on a host

A `Host` is described by its files, its environment variables and the languages whose grammar
cannot be loaded. Its `surroundings` are those of a run by itself: modules are parsed by the
grammars of this library, the settings come from the variables and from the file of bindings in
the working directory, and no other bindings are loaded.
-/

set_option autoImplicit false

namespace ImportClosure.CommandLine

/-- Where a run takes place. -/
structure Host where
  tree : FileTree
  environment : Environment
  broken : List (Syntax.Language × Text)

namespace Host

/-- The path of the file with bindings of settings. -/
def bindingsPath : Path := ".env".toList

/-- The text of the file with bindings of settings, if there is one. -/
def bindingsText (host : Host) : Except Settings.SettingsError (Option Text) :=
  match host.tree.read bindingsPath with
  | .error _ => .ok none
  | .ok bytes => match Text.decode? bytes with
    | some text => .ok (some text)
    | none => .error .undecodable

/-- The complaints about lines of the file with bindings. -/
def bindingsComplaints (host : Host) : Text :=
  match host.bindingsText with
  | .error _ => []
  | .ok file => (Settings.malformedLines file).flatMap fun line =>
    "python-dotenv could not parse statement starting at line ".toList ++ Text.ofNat line ++
      ['\n']

/-- The settings that are made on a host from an environment. -/
def makeSettings (host : Host) (environment : Environment) :
    Except Settings.SettingsError Settings := do
  let file ← host.bindingsText
  Settings.load [] environment file

/-- What a run on a host finds around it. -/
def surroundings (host : Host) : Surroundings Settings.SettingsError where
  tree := host.tree
  grammars := host.broken
  environment := host.environment
  loadBindings environment := (.ok environment, [])
  makeSettings environment := (host.makeSettings environment, host.bindingsComplaints)

/-- The settings of a run on a host. -/
def settings (host : Host) : Except Settings.SettingsError Settings := host.surroundings.settings

end Host

/-- A run on a host. -/
def run (host : Host) (arguments : List Text) : Except (Abort Settings.SettingsError) Outcome :=
  host.surroundings.run arguments

end ImportClosure.CommandLine
