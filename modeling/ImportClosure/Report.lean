import ImportClosure.FileTree.Basic
import ImportClosure.Json.Writer
import ImportClosure.Time.Calendar

/-!
# `ImportClosure.Report`: the lines that report a set of files

A report is one line of JSON: the list of the distinct paths in ascending order, or the list
of `SourceFile`s, paths with the instant of the last change. Source files are in order of
their instants, those of one instant in order of their paths; a path at which nothing is counts as
last changed at the epoch, and so does what was last changed beyond the calendar. The project's
manifest can be added if it is a file.

Paths are dated one by one, in the order of the paths. A path that holds a NUL cannot be dated, and
neither can one whose instant has a year before 1 or after 9999.
-/

set_option autoImplicit false

namespace ImportClosure

/-- A path and the instant at which its file was last changed. -/
structure SourceFile where
  path : Path
  modified : Instant
  deriving DecidableEq, Repr

namespace Report

/-- The path of a project's manifest. -/
def manifest (root : Path) : Path :=
  Text.replace '\\' '/' (Path.join root "package.json".toList)

/-- Paths, with the manifest if it is asked for and a file. -/
def withManifest (tree : FileTree) (paths : List Path) (root : Path) (wanted : Bool) :
    List Path :=
  if wanted && tree.isFile (manifest root) then manifest root :: paths else paths

/-- The instant of the last change of the file or folder at a path. -/
def modified (tree : FileTree) (path : Path) : Instant :=
  match tree.modified? path with
  | some nanos =>
    let instant := Instant.ofNanos nanos
    if instant.hasDate then instant else Instant.epoch
  | none => Instant.epoch

/-- Why a path cannot be dated. -/
inductive OutOfRange where
  /-- The path holds a NUL, so that nothing can be looked up for it. -/
  | nul
  /-- The year of its instant cannot be written. -/
  | year (instant : Instant)
  deriving DecidableEq, Repr

/-- The words for a path that cannot be dated. -/
def OutOfRange.message : OutOfRange → Text
  | nul => "embedded null byte".toList
  | year instant => "year ".toList ++ Json.writeInt instant.date.year ++ " is out of range".toList

/-- The source file for a path, unless it cannot be dated. -/
def date (tree : FileTree) (path : Path) : Except OutOfRange SourceFile :=
  if '\x00' ∈ path then .error .nul
  else if (modified tree path).isWritable then .ok ⟨path, modified tree path⟩
  else .error (.year (modified tree path))

/-- Inserts a file into a list in order of instants, before those of the same instant. -/
def insertByInstant (file : SourceFile) : List SourceFile → List SourceFile
  | [] => [file]
  | f :: rest =>
    if file.modified.micros ≤ f.modified.micros then file :: f :: rest
    else f :: insertByInstant file rest

/-- The source files for the distinct paths, and for the manifest if it is asked for, in order of
instants and then of paths, unless one of the paths cannot be dated. -/
def collect (tree : FileTree) (paths : List Path) (root : Path) (wanted : Bool) :
    Except OutOfRange (List SourceFile) := do
  let files ← (Text.sortedSet (withManifest tree paths root wanted)).mapM (date tree)
  return files.foldr insertByInstant []

/-- A JSON value on a line of its own. -/
def line (value : Json.Value) : Text := Json.render value ++ ['\n']

/-- The line for paths. -/
def ofPaths (paths : List Path) : Text := line (.list ((Text.sortedSet paths).map .text))

/-- The JSON object for a source file. -/
def fileValue (file : SourceFile) : Json.Value :=
  .object [("path".toList, .text file.path), ("modified".toList, .text file.modified.text)]

/-- The line for source files. -/
def ofFiles (files : List SourceFile) : Text := line (.list (files.map fileValue))

end Report

end ImportClosure
