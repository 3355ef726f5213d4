import ImportClosure.FileTree.Basic

/-!
# `ImportClosure.FileTree.Listing`: the files below a folder

`FileTree.listing` lists the files below the folder that a path names, each as the names to
enter from there. A link counts as a file unless it leads to a folder, so that links without
a target are listed; links to folders are neither listed nor entered, and neither are the
folders whose name is skipped.

Folders are entered by their paths, which begin with that of the first folder. A folder whose path
is too long to be followed is not entered, and a link whose path is too long leads to no folder.
-/

set_option autoImplicit false

namespace ImportClosure.FileTree

mutual

/-- The files below a node, which a path names. -/
def filesBelow (tree : FileTree) (skipped : Text → Bool) : Path → Node → List Place
  | _, .file _ _ => []
  | _, .link _ => []
  | path, .folder _ entries =>
    if maxPathBytes ≤ Text.byteLength path then [] else filesAmong tree skipped path entries

/-- The files among the entries of the folder that a path names, and below them. -/
def filesAmong (tree : FileTree) (skipped : Text → Bool) :
    Path → List (Text × Node) → List Place
  | _, [] => []
  | path, (name, node) :: rest =>
    (match node with
      | .file _ _ => [[name]]
      | .link _ => if tree.isFolder (Path.join path name) then [] else [[name]]
      | .folder _ _ =>
        if skipped name then []
        else (filesBelow tree skipped (Path.join path name) node).map (name :: ·)) ++
      filesAmong tree skipped path rest

end

/-- The files below the folder that a path names; none if it names no folder. -/
def listing (tree : FileTree) (skipped : Text → Bool) (root : Path) : List Place :=
  match tree.find root with
  | .ok (_, node) => filesBelow tree skipped root node
  | .error _ => []

end ImportClosure.FileTree
