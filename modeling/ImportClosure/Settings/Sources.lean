import ImportClosure.Settings.Basic
import ImportClosure.Settings.DotEnv
import ImportClosure.Json.Reader
import ImportClosure.Text.Utf8

/-!
# `ImportClosure.Settings.Sources`: where the settings come from

A field takes its value from the first source that has one: what the caller gives, the
environment, a file of bindings, the default. Variables are named `RESOLVER_` and the field's
name, in any case; the last of several bindings counts. The fields that hold lists are
written as JSON, and the JSON value `null` counts as no value.

`Settings.load` answers with the settings or with a `SettingsError`. A variable that is no
JSON text is one even if another source comes first, and is found before any value that a
field does not accept.

Runs on a host make their settings in this way. What is proved of a run holds however its settings
are made.
-/

set_option autoImplicit false

namespace ImportClosure

namespace Settings

/-- The sources that hold variables. -/
inductive Source where
  | environment
  | file
  deriving DecidableEq, Repr

/-- The name of a source. -/
def Source.name : Source → Text
  | environment => "EnvSettingsSource".toList
  | file => "DotEnvSettingsSource".toList

/-- Why no settings can be made. -/
inductive SettingsError where
  /-- The bytes of the file of bindings are no text. -/
  | undecodable
  /-- The variable of a list field is no JSON text. -/
  | unreadable (field : Field) (source : Source)
  /-- A field does not accept its value. -/
  | invalid (field : Field)
  deriving DecidableEq, Repr

/-- The words for an error. -/
def SettingsError.message : SettingsError → Text
  | undecodable => "the file of bindings is not encoded in UTF-8".toList
  | unreadable field source =>
    "error parsing value for field \"".toList ++ field.name ++ "\" from source \"".toList ++
      source.name ++ ['"']
  | invalid field => "invalid value for field \"".toList ++ field.name ++ ['"']

/-- The name of a field's variable, in lower case. -/
def variableName (field : Field) : Text := "resolver_".toList ++ field.name

/-- The last value bound to a name that is given in lower case. -/
def lookupLast? (name : Text) (bindings : List (Text × Option Text)) : Option Text :=
  (bindings.foldl (fun found b => if Text.lower b.1 = name then some b.2 else found) none).join

/-- The value that a source has for a field. -/
def sourceValue (source : Source) (bindings : List (Text × Option Text)) (field : Field) :
    Except SettingsError (Option Json.Value) :=
  match lookupLast? (variableName field) bindings with
  | none => .ok none
  | some t =>
    if field.isList then
      match Json.read? t with
      | none => .error (.unreadable field source)
      | some .null => .ok none
      | some v => .ok (some v)
    else .ok (some (.text t))

/-- The values that a source has for the fields. -/
def sourceValues (source : Source) (bindings : List (Text × Option Text)) :
    Except SettingsError (List (Field × Json.Value)) := do
  let found ← Field.all.mapM fun field => do
    let v ← sourceValue source bindings field
    return v.map (field, ·)
  return found.filterMap id

/-- The values that the caller gives. -/
def givenValues (given : List (Text × Json.Value)) : List (Field × Json.Value) :=
  Field.all.filterMap fun field => (Json.Value.member? field.name (.object given)).map (field, ·)

/-- The settings from the values that the sources have, those of greater weight first. -/
def ofValues (values : List (Field × Json.Value)) : Except SettingsError Settings :=
  Field.all.foldlM (fun s field =>
    match values.lookup field with
    | none => .ok s
    | some v => match s.set? field v with
      | some s => .ok s
      | none => .error (.invalid field)) {}

/-- The text of a file of bindings; a file that is not there is empty. -/
def bindingsText (file : Option Text) : Text := Text.unifyNewlines (file.getD [])

/-- The numbers of the lines of a file that fit no binding. -/
def malformedLines (file : Option Text) : List Nat := DotEnv.malformedLines (bindingsText file)

/-- The settings for the values that the caller gives, the environment and the text of a file
of bindings. -/
def load (given : List (Text × Json.Value)) (environment : List (Text × Text))
    (file : Option Text) : Except SettingsError Settings := do
  let first := givenValues given
  let second ← sourceValues .environment (environment.map fun (n, v) => (n, some v))
  let third ← sourceValues .file (DotEnv.bindings environment (bindingsText file))
  ofValues (first ++ second ++ third)

end Settings

end ImportClosure
