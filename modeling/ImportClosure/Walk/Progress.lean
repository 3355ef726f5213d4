import ImportClosure.Path.Basic

/-!
# `ImportClosure.Walk.Progress`: how far a walk has come

A walk claims a path before it reads anything from it and resolves it when it is done with
it. `Progress` holds the mark of each claimed path and the paths that the walk depends on. A
path that has a mark cannot be claimed again, and a path that is resolved is a dependency.
-/

set_option autoImplicit false

namespace ImportClosure

/-- The marks of the paths that a walk has met. -/
inductive Mark where
  | inProgress
  | resolved
  deriving DecidableEq, Repr

/-- The marks of paths and the dependencies found so far. -/
structure Progress where
  marks : List (Path × Mark)
  dependencies : List Path
  deriving DecidableEq, Repr

namespace Progress

/-- Nothing has been met. -/
def empty : Progress := ⟨[], []⟩

/-- The mark of a path. -/
def mark? (p : Progress) (path : Path) : Option Mark := p.marks.lookup path

/-- The marks with the one of a path set, in its place if the path has one. -/
def setMark (path : Path) (mark : Mark) : List (Path × Mark) → List (Path × Mark)
  | [] => [(path, mark)]
  | (q, m) :: rest => if q = path then (q, mark) :: rest else (q, m) :: setMark path mark rest

/-- Claims a path: the new progress, or nothing if the path has been met before. -/
def claim? (p : Progress) (path : Path) : Option Progress :=
  if (p.mark? path).isSome then none
  else some { p with marks := p.marks ++ [(path, .inProgress)] }

/-- Counts a path among the dependencies. -/
def depend (p : Progress) (path : Path) : Progress :=
  if path ∈ p.dependencies then p else { p with dependencies := p.dependencies ++ [path] }

/-- Resolves a path. -/
def resolve (p : Progress) (path : Path) : Progress :=
  { p with marks := setMark path .resolved p.marks }.depend path

end Progress

end ImportClosure
