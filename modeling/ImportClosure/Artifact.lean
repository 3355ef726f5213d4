import ImportClosure.Path.Basic
import ImportClosure.Settings.Basic

/-!
# `ImportClosure.Artifact`: what a path is to the resolver

The extension of a path, in lower case, tells whether it is a document, a module or neither;
an extension that is listed for both makes a document. A path is vendored when one of its
directory segments is the name of a vendor directory.
-/

set_option autoImplicit false

namespace ImportClosure

/-- The two kinds of files with imports of their own. -/
inductive Kind where
  /-- A file of code, whose imports are read off its syntax tree. -/
  | module
  /-- A file that mixes prose and code, whose imports are read from the raw text. -/
  | document
  deriving DecidableEq, Repr

/-- The kind of a path, if its extension is a recognized one. -/
def classify (settings : Settings) (path : Path) : Option Kind :=
  let extension := Text.lower (Path.extension path)
  if extension ∈ settings.documentExtensions then some .document
  else if extension ∈ settings.moduleExtensions then some .module
  else none

/-- The path, relative to the root, crosses a vendor directory. -/
def isVendored (settings : Settings) (path : Path) : Bool :=
  (Path.folders path).any fun folder => folder ∈ settings.vendorDirs

end ImportClosure
