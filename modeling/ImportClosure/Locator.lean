import ImportClosure.Artifact
import ImportClosure.FileTree.Listing
import ImportClosure.Log

/-!
# `ImportClosure.Locator`: the files that implement a document's import target

A document imports a target, a path relative to the root that usually has no extension. Its
`candidates` are the target itself, if it has a recognized extension, the index files in the
folder of that name, and the files of that name, with every recognized extension in turn. A
file matches a candidate when its path relative to the root is the candidate or ends with a
slash and the candidate, so that one target can mean several files.

`Locator` looks files up by their name in an `Index` of the tree. The index is made at the
first search and kept, so that later changes of the tree do not show.
-/

set_option autoImplicit false

namespace ImportClosure

/-- The files of a project by name: each name with the ascending paths, relative to the root,
of the files that bear it. -/
abbrev Index := List (Text × List Path)

namespace Index

/-- Adds a file to the index. -/
def add (index : Index) (name : Text) (path : Path) : Index :=
  match index with
  | [] => [(name, [path])]
  | (n, paths) :: rest =>
    if n = name then (n, paths ++ [path]) :: rest else (n, paths) :: add rest name path

/-- Inserts a path into an ascending list. -/
def insertPath (path : Path) : List Path → List Path
  | [] => [path]
  | p :: rest => if Text.le path p then path :: p :: rest else p :: insertPath path rest

/-- The index of files, given by the names to enter from the root. -/
def ofPlaces (places : List Place) : Index :=
  (places.foldl (fun index place =>
    add index (place.getLast?.getD []) (Text.replace '\\' '/' (Path.ofSegments place))) []).map
    fun (name, paths) => (name, paths.foldr insertPath [])

/-- The paths of the files that bear a name. -/
def paths (index : Index) (name : Text) : List Path := (index.lookup name).getD []

end Index

/-- Searches a project for the files of import targets. -/
structure Locator where
  root : Path
  settings : Settings
  /-- The index, once a search has made it. -/
  index : Option Index

namespace Locator

/-- A locator that has not searched yet. -/
def new (root : Path) (settings : Settings) : Locator := ⟨root, settings, none⟩

/-- The paths relative to the root that a target may mean. -/
def candidates (settings : Settings) (target : Path) : List Path :=
  let target := Text.dropEndWhile (· = '/') target
  let extensions := settings.sourceExtensions
  let exact := if Text.lower (Path.extension target) ∈ extensions then [target] else []
  exact ++ extensions.map (fun e => target ++ "/index".toList ++ e) ++
    extensions.map (fun e => target ++ e)

/-- A directory of this name is passed over by searches. -/
def skips (settings : Settings) (name : Text) : Bool :=
  name ∈ settings.vendorDirs || name ∈ settings.ignoredDirs

/-- The index and the locator that keeps it. -/
def indexed (locator : Locator) (tree : FileTree) : Traced (Index × Locator) :=
  match locator.index with
  | some index => pure (index, locator)
  | none => do
    let places := tree.listing (skips locator.settings) locator.root
    let index := Index.ofPlaces places
    Traced.note .locator .debug
      ("Indexed ".toList ++ Text.ofNat places.length ++ " files under ".toList ++ locator.root)
    return (index, { locator with index := some index })

/-- The path, relative to the root, matches the candidate. -/
def fits (candidate path : Path) : Bool :=
  path = candidate || Text.endsWith ('/' :: candidate) path

/-- The files of an index that match one of the candidates, in the order of the candidates
and without repetitions, as paths below the root. -/
def search (root : Path) (index : Index) (candidates : List Path) : List Path :=
  Text.distinct (candidates.flatMap fun candidate =>
    ((index.paths (Path.fileName candidate)).filter (fits candidate)).map fun path =>
      Text.replace '\\' '/' (Path.join root path))

/-- The target, written with slashes, means no file under the root. -/
def isBarred (settings : Settings) (target : Path) : Bool :=
  target = [] || target = Path.here || Path.leaves target ||
    isVendored settings (target ++ ['/'])

/-- The files that implement a target. -/
def locate (tree : FileTree) (locator : Locator) (target : Path) :
    Traced (List Path × Locator) := do
  let target := Text.replace '\\' '/' target
  if isBarred locator.settings target then return ([], locator)
  let (index, locator) ← locator.indexed tree
  let found := search locator.root index (candidates locator.settings target)
  if found = [] then
    Traced.note .locator .debug ("No file found for import target ".toList ++ target)
  return (found, locator)

end Locator

end ImportClosure
