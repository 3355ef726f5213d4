import ImportClosure.Analyzer.Basic

/-!
# `ImportClosure.Analyzer.Reachable`: all files that a module depends on

`reachable` follows direct imports breadth first from one module. Only modules are followed
further: a document or another file is an end, and so is a module that cannot be analyzed,
which the log tells. The module itself is no part of the answer, and if it cannot be analyzed
there is none.

The search takes a file off its queue at each step. Every file it meets has a path that can
be followed, and there are fewer than `FileTree.pathBound` of those, which bounds the steps.
-/

set_option autoImplicit false

namespace ImportClosure

/-- There are fewer paths than this that a file tree can follow: each is a text of fewer than
`maxPathBytes` bytes. -/
def FileTree.pathBound : Nat := Nat.pow 256 FileTree.maxPathBytes

namespace Analyzer

/-- Searches on from a queue of files, with the files found so far. -/
def searchFrom (tree : FileTree) (start : Path) :
    Nat → Analyzer → (queue found : List Path) → Traced (List Path × Analyzer)
  | 0, analyzer, _, found => pure (found, analyzer)
  | _ + 1, analyzer, [], found => pure (found, analyzer)
  | steps + 1, analyzer, path :: queue, found =>
    if path ∈ found ∨ path = start then searchFrom tree start steps analyzer queue found
    else if classify analyzer.settings path ≠ some .module then
      searchFrom tree start steps analyzer queue (found ++ [path])
    else do
      let (files, analyzer) ← analyzer.directImports tree path
      match files with
      | .ok files => searchFrom tree start steps analyzer (queue ++ files) (found ++ [path])
      | .error failure =>
        Traced.note .moduleGraph .warning
          ("Treating ".toList ++ path ++ " as a leaf: ".toList ++ failure.message)
        searchFrom tree start steps analyzer queue (found ++ [path])

/-- The files that the module at a path depends on, in the order in which they are found. -/
def reachable (analyzer : Analyzer) (tree : FileTree) (path : Path) :
    Traced (Except Failure (List Path) × Analyzer) := do
  let path := Path.toSlashes path
  let (files, analyzer) ← analyzer.directImports tree path
  match files with
  | .error failure => return (.error failure, analyzer)
  | .ok files =>
    let (found, analyzer) ←
      searchFrom tree path ((FileTree.pathBound + 1) * (FileTree.pathBound + 1)) analyzer files []
    return (.ok found, analyzer)

end Analyzer

end ImportClosure
