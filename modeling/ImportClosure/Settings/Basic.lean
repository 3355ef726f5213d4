import ImportClosure.Json.Value
import ImportClosure.Text.Case

/-!
# `ImportClosure.Settings.Basic`: what a run can be told

`Settings` holds the values a run works with. Each value has a `Field`, whose name and kind
decide where it is looked up and which values it accepts; `Settings.set?` puts a value into the
settings if its field accepts it.
-/

set_option autoImplicit false

namespace ImportClosure

/-- The settings of a run. -/
structure Settings where
  /-- The name that the command line logs under. -/
  toolName : Text := "resolve-imports".toList
  /-- The name of the least level of log entries that the command line shows. -/
  logLevel : Text := "WARNING".toList
  /-- The extensions of modules. -/
  moduleExtensions : List Text :=
    [".ts".toList, ".tsx".toList, ".js".toList, ".jsx".toList, ".mjs".toList, ".cjs".toList]
  /-- The extensions of documents, which mix prose and code. -/
  documentExtensions : List Text := [".mdx".toList]
  /-- The names of directories with foreign sources. -/
  vendorDirs : List Text := ["node_modules".toList]
  /-- The names of directories with no sources at all. -/
  ignoredDirs : List Text := [".git".toList, ".hg".toList, ".svn".toList]
  /-- A module with syntax errors is one that cannot be analyzed. -/
  strictSyntax : Bool := false
  deriving DecidableEq, Repr

namespace Settings

/-- Every recognized extension, those of modules first. -/
def sourceExtensions (s : Settings) : List Text := s.moduleExtensions ++ s.documentExtensions

/-- The fields of the settings. -/
inductive Field where
  | toolName
  | logLevel
  | moduleExtensions
  | documentExtensions
  | vendorDirs
  | ignoredDirs
  | strictSyntax
  deriving DecidableEq, Repr

namespace Field

/-- All fields, in the order in which their values are looked up. -/
def all : List Field :=
  [toolName, logLevel, moduleExtensions, documentExtensions, vendorDirs, ignoredDirs,
    strictSyntax]

/-- The name of a field. -/
def name : Field → Text
  | toolName => "tool_name".toList
  | logLevel => "log_level".toList
  | moduleExtensions => "module_extensions".toList
  | documentExtensions => "document_extensions".toList
  | vendorDirs => "vendor_dirs".toList
  | ignoredDirs => "ignored_dirs".toList
  | strictSyntax => "strict_syntax".toList

/-- The field holds a list of texts. -/
def isList : Field → Bool
  | moduleExtensions | documentExtensions | vendorDirs | ignoredDirs => true
  | toolName | logLevel | strictSyntax => false

end Field

/-- Words for yes. -/
def yesWords : List Text :=
  ["1", "t", "y", "on", "yes", "true"].map String.toList

/-- Words for no. -/
def noWords : List Text :=
  ["0", "f", "n", "no", "off", "false"].map String.toList

/-- The answer that a word stands for, in any case. -/
def flagOfText? (t : Text) : Option Bool :=
  let word := t.map Char.toLower
  if word ∈ yesWords then some true else if word ∈ noWords then some false else none

/-- The answer that a value stands for: itself, one of the words, or the number 0 or 1. -/
def flagOf? : Json.Value → Option Bool
  | .bool b => some b
  | .text t => flagOfText? t
  | v => match v.asInt? with
    | some 1 => some true
    | some 0 => some false
    | _ => none

/-- The texts of a value that is a list of texts. -/
def textsOf? (v : Json.Value) : Option (List Text) := do
  let items ← v.asList?
  items.mapM Json.Value.asText?

/-- The settings with the value of one field replaced, if the field accepts the value. -/
def set? (s : Settings) (field : Field) (v : Json.Value) : Option Settings :=
  match field with
  | .toolName => v.asText?.map fun t => { s with toolName := t }
  | .logLevel => v.asText?.map fun t => { s with logLevel := t }
  | .moduleExtensions => (textsOf? v).map fun ts => { s with moduleExtensions := ts }
  | .documentExtensions => (textsOf? v).map fun ts => { s with documentExtensions := ts }
  | .vendorDirs => (textsOf? v).map fun ts => { s with vendorDirs := ts }
  | .ignoredDirs => (textsOf? v).map fun ts => { s with ignoredDirs := ts }
  | .strictSyntax => (flagOf? v).map fun b => { s with strictSyntax := b }

end Settings

end ImportClosure
