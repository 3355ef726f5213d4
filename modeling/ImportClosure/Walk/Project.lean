import ImportClosure.Document.Reference
import ImportClosure.Entry
import ImportClosure.Locator
import ImportClosure.Walk.Basic

/-!
# `ImportClosure.Walk.Project`: walking the files of a project

A `Walker` walks one project: documents are read from the file tree and their references
looked up by a locator, modules are read by an analyzer. Locator, analyzer and progress carry
over from one walk to the next.

`resolveImports` is the whole run: it accepts the entry, walks from it with a new walker and
answers with the dependencies in ascending order. A missing or unrecognized entry has none.
-/

set_option autoImplicit false

namespace ImportClosure

/-- Walks the files of one project. -/
structure Walker where
  root : Path
  settings : Settings
  locator : Locator
  analyzer : Analyzer
  progress : Progress

namespace Walker

/-- A walker that has walked nowhere yet. -/
def new (root : Path) (settings : Settings) (grammars : Grammars) : Walker :=
  ⟨root, settings, Locator.new root settings, Analyzer.new root settings grammars, Progress.empty⟩

/-- The text of a document, with every line end as one line feed. -/
def documentText (tree : FileTree) (path : Path) : Except Trouble Text :=
  (tree.read path).map fun bytes => Text.unifyNewlines (Text.decode bytes)

/-- The target of a specifier in the document at a path: the way from the root to what it
names. -/
def target (tree : FileTree) (root path : Path) (specifier : Text) : Path :=
  let named := Path.normalize (Path.join (Path.directory path) specifier)
  Text.replace '\\' '/' (Path.relative tree.cwd named root)

/-- The files that implement targets, one target after the other. -/
def locateAll (tree : FileTree) : List Path → Locator → Traced (List Path × Locator)
  | [], locator => pure ([], locator)
  | target :: targets, locator => do
    let (files, locator) ← locator.locate tree target
    let (more, locator) ← locateAll tree targets locator
    return (files ++ more, locator)

/-- The files that the document at a path imports. -/
def documentImports (tree : FileTree) (root path : Path) (locator : Locator) :
    Traced (Except Trouble (List Path) × Locator) :=
  match documentText tree path with
  | .error trouble => pure (.error trouble, locator)
  | .ok text => do
    let references ← Document.references text path
    let targets := references.map fun r => target tree root path r.specifier
    let (files, locator) ← locateAll tree targets locator
    return (.ok files, locator)

/-- The sources of a project: its documents and modules. -/
def sources (tree : FileTree) (root : Path) : Sources (Locator × Analyzer) where
  document path state := do
    let (files, locator) ← documentImports tree root path state.1
    return (files, locator, state.2)
  module path state := do
    let (files, analyzer) ← state.2.reachable tree path
    return (files, state.1, analyzer)

/-- More steps than a walk can make: it visits the entry and files that either can be
followed or stand in the index. -/
def stepBound (tree : FileTree) (locator : Locator) : Nat :=
  let indexed := match locator.index with
    | some index => (index.flatMap fun entry => entry.2).length
    | none => (tree.listing (Locator.skips locator.settings) locator.root).length
  FileTree.pathBound + indexed + 1

/-- Walks from an entry. -/
def walk (walker : Walker) (tree : FileTree) (entry : Path) : Traced Walker := do
  let (progress, locator, analyzer) ←
    Walk.walk walker.settings (sources tree walker.root) (stepBound tree walker.locator) entry
      walker.progress (walker.locator, walker.analyzer)
  return { walker with locator, analyzer, progress }

/-- The dependencies found so far, in ascending order. -/
def dependencies (walker : Walker) : List Path := Text.sortedSet walker.progress.dependencies

end Walker

/-- The dependencies of an entry under a root, in ascending order, or the reason why the
arguments are refused. -/
def resolveImports (tree : FileTree) (settings : Settings) (grammars : Grammars)
    (root entry : Path) : Traced (Except Entry.Refusal (List Path)) := do
  match ← Entry.resolve tree settings root entry with
  | .error refusal =>
    if refusal.isMissingArgument then return .error refusal
    Traced.note .walker .info ("Nothing to resolve: ".toList ++ refusal.message)
    return .ok []
  | .ok accepted =>
    let walker ← (Walker.new accepted.root settings grammars).walk tree accepted.entry
    return .ok walker.dependencies

end ImportClosure
