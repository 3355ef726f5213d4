import ImportClosure.FileTree.Basic

/-!
# `ImportClosure.FileTree.Edit`: trees with a node put in or taken out

`put` sets the node at a path and makes the folders on the way that are missing; it enters a
folder through links, and replaces what the path itself names, a link included. `remove`
takes out the node at a path, with all that is below it. There is no clock: the folders on the way
keep their times, and those that are made have the time 0.
-/

set_option autoImplicit false

namespace ImportClosure

namespace Node

/-- The entries with the one of the given name changed, or made. -/
def alter (name : Text) (change : Option Node → Node) :
    List (Text × Node) → List (Text × Node)
  | [] => [(name, change none)]
  | (n, node) :: rest =>
    if n = name then (n, change (some node)) :: rest else (n, node) :: alter name change rest

/-- The node with another put at a place below it. -/
def put (new : Node) : Place → Node → Node
  | [], _ => new
  | name :: rest, node =>
    let (modified, entries) := match node with
      | folder modified entries => (modified, entries)
      | file _ _ | link _ => (0, [])
    folder modified (alter name (fun old => put new rest (old.getD empty)) entries)

/-- The node without what is at a place below it. -/
def remove : Place → Node → Node
  | [], node => node
  | [name], folder modified entries => folder modified (entries.filter (·.1 ≠ name))
  | name :: rest, folder modified entries =>
    folder modified
      (entries.map fun (n, child) => (n, if n = name then remove rest child else child))
  | _ :: _, node => node

end Node

namespace FileTree

/-- The place of the folder that segments lead to, with missing folders counted as if they
were there. -/
def placeOf (tree : FileTree) (segments : List Text) : Place :=
  segments.foldl (fun place segment =>
    match follow tree.top maxLinks place [segment] with
    | .ok (place, _) => place
    | .error _ => place ++ [segment]) []

/-- The place of the entry that a path names, with links followed in its folder only. -/
def entryPlace (tree : FileTree) (path : Path) : Place :=
  let segments := Path.segments (Path.absolute tree.cwd path)
  tree.placeOf segments.dropLast ++ segments.getLast?.toList

/-- The tree with a node put at a path. -/
def put (tree : FileTree) (path : Path) (node : Node) : FileTree :=
  { tree with top := Node.put node (tree.entryPlace path) tree.top }

/-- The tree with a folder at a path; a folder that is there stays as it is. -/
def putFolder (tree : FileTree) (path : Path) : FileTree :=
  match tree.find path with
  | .ok (_, .folder _ _) => tree
  | _ => tree.put path .empty

/-- The tree without what a path names. -/
def remove (tree : FileTree) (path : Path) : FileTree :=
  { tree with top := Node.remove (tree.entryPlace path) tree.top }

end FileTree

end ImportClosure
