import ImportClosure.Artifact
import ImportClosure.FileTree.Basic

/-!
# `ImportClosure.Analyzer.Resolve`: the file that a module's specifier names

Only relative specifiers name files of the project: `.`, `..` and those that begin with `./`
or `../`. A query, all from the first question mark on, is no part of the path. The path is
read from the importing module's directory, and the first of its `candidates` that is a file
counts. That file is the answer if it lies under the root and outside vendor directories;
else there is none, and no later candidate is tried.
-/

set_option autoImplicit false

namespace ImportClosure.Analyzer

/-- The specifier is written as the name of a file of the project. -/
def isRelative (specifier : Text) : Bool :=
  Text.startsWith "./".toList specifier || Text.startsWith "../".toList specifier ||
    specifier = Path.here || specifier = Path.parent

/-- The extensions that a compiler writes. -/
def compiledExtensions : List Text := [".js", ".jsx", ".mjs", ".cjs"].map String.toList

/-- The extensions that a compiler reads. -/
def compilableExtensions : List Text := [".ts", ".tsx", ".mts", ".cts"].map String.toList

/-- The files that a path may mean: itself, the source that it is compiled from, itself with
a recognized extension, and the index file of its folder with one. -/
def candidates (settings : Settings) (base : Path) : List Path :=
  let sources :=
    if Path.extension base ∈ compiledExtensions then
      compilableExtensions.map fun e => Path.stem base ++ e
    else []
  base :: sources ++ settings.sourceExtensions.map (fun e => base ++ e) ++
    settings.sourceExtensions.map (fun e => Path.join base ("index".toList ++ e))

/-- The path lies under the root and outside vendor directories. -/
def isInside (tree : FileTree) (settings : Settings) (root path : Path) : Bool :=
  let way := Text.replace '\\' '/' (Path.relative tree.cwd path root)
  !(Path.leaves way || isVendored settings way)

/-- The path that a relative specifier stands for in a directory. -/
def specifiedPath (specifier : Text) (directory : Path) : Path :=
  Path.normalize (Path.join directory (Text.before '?' specifier))

/-- The file that a specifier in a module of `directory` names. -/
def resolve (tree : FileTree) (settings : Settings) (root : Path) (specifier : Text)
    (directory : Path) : Option Path :=
  if isRelative specifier then
    let found := (candidates settings (specifiedPath specifier directory)).find? tree.isFile
    (found.map Path.toSlashes).filter (isInside tree settings root)
  else none

end ImportClosure.Analyzer
