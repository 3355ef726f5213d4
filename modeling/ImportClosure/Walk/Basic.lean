import ImportClosure.Analyzer.Reachable
import ImportClosure.Walk.Progress

/-!
# `ImportClosure.Walk.Basic`: walking a graph of documents and modules

`walk` collects what an entry depends on. It keeps a stack of claimed files. A document that
can be read claims each recognized file that it imports, and is resolved; one that cannot be
read is left in progress. Of what a module reaches, documents are claimed, and all other
files are dependencies at once and are resolved when first met, for the module's answer
already holds all that they reach; then the module itself is resolved.

The walk asks for imports through `Sources`, whose answers may depend on a state and change
it. What a walk does with the answers does not depend on where they come from.
-/

set_option autoImplicit false

namespace ImportClosure

/-- Where a walk learns what files import. -/
structure Sources (σ : Type) where
  /-- The files that a document imports, in the order of its text. -/
  document : Path → σ → Traced (Except Trouble (List Path) × σ)
  /-- All the files that a module depends on. -/
  module : Path → σ → Traced (Except Analyzer.Failure (List Path) × σ)

/-- A file on the stack of a walk. -/
structure Artifact where
  path : Path
  kind : Kind
  deriving DecidableEq, Repr

namespace Walk

/-- Claims the recognized files that a document imports: those that were not met before, the
last one first. -/
def claimAll (settings : Settings) (files : List Path) (progress : Progress) :
    List Artifact × Progress :=
  files.foldl (fun (pending, progress) path =>
    match classify settings path with
    | none => (pending, progress)
    | some kind => match progress.claim? path with
      | none => (pending, progress)
      | some progress => (⟨path, kind⟩ :: pending, progress)) ([], progress)

/-- Takes in the files that a module reaches: the documents that were not met before, the
last one first. -/
def takeReached (settings : Settings) (files : List Path) (progress : Progress) :
    List Artifact × Progress :=
  files.foldl (fun (pending, progress) path =>
    if classify settings path = some .document then
      match progress.claim? path with
      | none => (pending, progress)
      | some progress => (⟨path, .document⟩ :: pending, progress)
    else
      let progress := progress.depend path
      match progress.claim? path with
      | none => (pending, progress)
      | some progress => (pending, progress.resolve path)) ([], progress)

variable {σ : Type}

/-- Visits a document: the files to visit after it, the last one first. -/
def visitDocument (settings : Settings) (sources : Sources σ) (path : Path)
    (progress : Progress) (state : σ) : Traced (List Artifact × Progress × σ) := do
  let (files, state) ← sources.document path state
  match files with
  | .error trouble =>
    Traced.note .walker .warning
      ("Skipping unreadable document ".toList ++ path ++ ": ".toList ++ trouble.report path)
    return ([], progress, state)
  | .ok files =>
    let (pending, progress) := claimAll settings files progress
    return (pending, progress.resolve path, state)

/-- Visits a module: the documents to visit after it, the last one first. A module that
cannot be analyzed reaches nothing. -/
def visitModule (settings : Settings) (sources : Sources σ) (path : Path)
    (progress : Progress) (state : σ) : Traced (List Artifact × Progress × σ) := do
  let (files, state) ← sources.module path state
  match files with
  | .error failure =>
    Traced.note .walker .warning
      ("Module analysis failed, no dependencies for ".toList ++ path ++ ": ".toList ++
        failure.message)
    return ([], progress.resolve path, state)
  | .ok files =>
    let (pending, progress) := takeReached settings (Text.sortedSet files) progress
    return (pending, progress.resolve path, state)

/-- Visits a file. -/
def visit (settings : Settings) (sources : Sources σ) (artifact : Artifact)
    (progress : Progress) (state : σ) : Traced (List Artifact × Progress × σ) :=
  match artifact.kind with
  | .document => visitDocument settings sources artifact.path progress state
  | .module => visitModule settings sources artifact.path progress state

/-- Visits the files on a stack, and those that come onto it, for a number of steps: the
stack that is left, and the progress made. -/
def run (settings : Settings) (sources : Sources σ) :
    Nat → List Artifact → Progress → σ → Traced (List Artifact × Progress × σ)
  | 0, stack, progress, state => pure (stack, progress, state)
  | _ + 1, [], progress, state => pure ([], progress, state)
  | steps + 1, artifact :: stack, progress, state => do
    let (pending, progress, state) ← visit settings sources artifact progress state
    run settings sources steps (pending ++ stack) progress state

/-- Walks from an entry. An entry that is not recognized or was met before is passed over. -/
def walk (settings : Settings) (sources : Sources σ) (steps : Nat) (entry : Path)
    (progress : Progress) (state : σ) : Traced (Progress × σ) :=
  match classify settings entry with
  | none => pure (progress, state)
  | some kind => match progress.claim? entry with
    | none => pure (progress, state)
    | some progress => do
      let (_, progress, state) ← run settings sources steps [⟨entry, kind⟩] progress state
      Traced.note .walker .info
        ("Resolved ".toList ++ Text.ofNat progress.dependencies.length ++
          " dependencies for ".toList ++ entry)
      return (progress, state)

end Walk

end ImportClosure
