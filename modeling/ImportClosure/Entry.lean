import ImportClosure.Artifact
import ImportClosure.FileTree.Basic
import ImportClosure.Log
import ImportClosure.Text.Blank

/-!
# `ImportClosure.Entry`: the file that a run starts from

`Entry.resolve` makes the root and the entry absolute and accepts the entry if it is an
existing file under the root, outside vendor directories and of a recognized kind. The
reasons for a refusal are checked in this order: the root is blank, the entry is blank, the
file does not exist, it lies outside the sources, its extension is not recognized.
-/

set_option autoImplicit false

namespace ImportClosure.Entry

/-- Why an entry is refused. -/
inductive Refusal where
  | blankRoot
  | blankEntry
  | notFound (path : Path)
  | outside (path : Path)
  | unrecognized (path : Path)
  deriving DecidableEq, Repr

namespace Refusal

/-- The component that reports a refusal. -/
def component : Refusal → Component
  | blankRoot | blankEntry => .commandLine
  | notFound _ | outside _ | unrecognized _ => .paths

/-- The arguments are at fault, rather than the file tree. -/
def isMissingArgument : Refusal → Bool
  | blankRoot | blankEntry => true
  | notFound _ | outside _ | unrecognized _ => false

/-- The words for a refusal. -/
def words : Refusal → Text
  | blankRoot => "Missing root path".toList
  | blankEntry => "Missing entry file".toList
  | notFound path => "Entry file not found: ".toList ++ path
  | outside path => "Entry file is outside the project sources: ".toList ++ path
  | unrecognized path => "Unrecognized entry extension: ".toList ++ path

/-- The report of a refusal. -/
def message (refusal : Refusal) : Text := refusal.component.report refusal.words

end Refusal

/-- An accepted entry: the root and the entry, absolute and with slashes only. -/
structure Accepted where
  root : Path
  entry : Path
  deriving DecidableEq, Repr

/-- Accepts or refuses a root and an entry. A relative root is read from the working
directory and a relative entry from the root. -/
def resolve (tree : FileTree) (settings : Settings) (root entry : Path) :
    Traced (Except Refusal Accepted) :=
  if Text.allBlank root then pure (.error .blankRoot)
  else if Text.allBlank entry then pure (.error .blankEntry)
  else
    let root := Path.toSlashes (Path.absolute tree.cwd root)
    let entry := Path.toSlashes (Path.join root entry)
    if !tree.isFile entry then pure (.error (.notFound entry))
    else
      let way := Text.replace '\\' '/' (Path.relative tree.cwd entry root)
      if Text.startsWith ['.', '.', '/'] way || isVendored settings way then
        pure (.error (.outside entry))
      else if classify settings entry = none then pure (.error (.unrecognized entry))
      else do
        Traced.note .paths .debug
          ("Resolved entry ".toList ++ entry ++ " under root ".toList ++ root)
        return .ok ⟨root, entry⟩

end ImportClosure.Entry
