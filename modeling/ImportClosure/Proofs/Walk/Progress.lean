import ImportClosure.Walk.Progress

/-!
# `ImportClosure.Proofs.Walk.Progress`: what the steps of a walk do to its progress

A path is `Met` once it has a mark. Claiming a path meets it, and so does resolving it; no
step takes a mark or a dependency away. Each operation has one lemma for the marks after it, one
for the paths that are met after it, and one for the dependencies after it.
-/

set_option autoImplicit false

namespace ImportClosure.Progress

/-- The walk has met the path. -/
def Met (p : Progress) (path : Path) : Prop := (p.mark? path).isSome = true

/-- A path that has a mark has been met. -/
theorem met_of_mark? {p : Progress} {path : Path} {mark : Mark} (h : p.mark? path = some mark) :
    p.Met path :=
  Option.isSome_of_eq_some h

/-- At the beginning nothing has been met. -/
theorem not_met_empty (path : Path) : ¬empty.Met path := by
  simp [Met, mark?, empty]

/-! ### Claiming -/

/-- Exactly the paths that were met before cannot be claimed. -/
theorem claim?_eq_none_iff (p : Progress) (path : Path) : p.claim? path = none ↔ p.Met path := by
  unfold claim? Met
  split <;> simp_all

/-- A path that was not met before is claimed with a mark at the end. -/
theorem claim?_of_not_met {p : Progress} {path : Path} (h : ¬p.Met path) :
    p.claim? path = some { p with marks := p.marks ++ [(path, .inProgress)] } :=
  if_neg h

/-- A claimed path was not met before. -/
theorem not_met_of_claim? {p q : Progress} {path : Path} (h : p.claim? path = some q) :
    ¬p.Met path := by
  intro hmet
  rw [(claim?_eq_none_iff p path).mpr hmet] at h
  contradiction

/-- A claim marks the path as in progress and changes no other mark. -/
theorem mark?_of_claim? {p q : Progress} {path : Path} (h : p.claim? path = some q) (x : Path) :
    q.mark? x = if x = path then some .inProgress else p.mark? x := by
  have hnone : p.marks.lookup path = none :=
    Option.not_isSome_iff_eq_none.mp (not_met_of_claim? h)
  rw [claim?_of_not_met (not_met_of_claim? h)] at h
  cases h
  unfold mark?
  rw [List.lookup_append]
  by_cases hx : x = path
  · simp [hx, hnone]
  · have hne : (x == path) = false := by simpa using hx
    simp [List.lookup_cons, hne, hx]

/-- A claim meets the path and no other. -/
theorem met_of_claim? {p q : Progress} {path : Path} (h : p.claim? path = some q) (x : Path) :
    q.Met x ↔ x = path ∨ p.Met x := by
  rw [Met, mark?_of_claim? h]
  by_cases hx : x = path <;> simp [hx, Met]

/-- A claim leaves the dependencies as they are. -/
theorem dependencies_of_claim? {p q : Progress} {path : Path} (h : p.claim? path = some q) :
    q.dependencies = p.dependencies := by
  rw [claim?_of_not_met (not_met_of_claim? h)] at h
  cases h
  rfl

/-! ### Depending and resolving -/

/-- Depending on a path changes no mark. -/
@[simp] theorem mark?_depend (p : Progress) (path x : Path) :
    (p.depend path).mark? x = p.mark? x := by
  unfold depend
  split <;> rfl

/-- Depending on a path meets none. -/
@[simp] theorem met_depend (p : Progress) (path x : Path) : (p.depend path).Met x ↔ p.Met x := by
  rw [Met, mark?_depend, Met]

/-- Depending on a path adds it to the dependencies. -/
@[simp] theorem mem_depend (p : Progress) (path x : Path) :
    x ∈ (p.depend path).dependencies ↔ x = path ∨ x ∈ p.dependencies := by
  unfold depend
  split
  -- The path is a dependency already, so nothing is added.
  · constructor
    · exact Or.inr
    · rintro (rfl | h)
      · assumption
      · exact h
  · rw [List.mem_append, List.mem_singleton]
    exact or_comm

/-- Setting the mark of a path sets it and changes no other. -/
theorem lookup_setMark (path : Path) (mark : Mark) (marks : List (Path × Mark)) (x : Path) :
    (setMark path mark marks).lookup x = if x = path then some mark else marks.lookup x := by
  induction marks with
  | nil => by_cases hx : x = path <;> simp [setMark, hx]
  | cons first rest ih =>
      obtain ⟨q, m⟩ := first
      by_cases hq : q = path
      -- The first mark is that of the path: it is replaced, and the rest is kept.
      · subst hq
        rw [setMark, if_pos rfl]
        by_cases hx : x = q
        · simp [hx]
        · have hne : (x == q) = false := by simpa using hx
          simp [List.lookup_cons, hne, hx]
      · rw [setMark, if_neg hq, List.lookup_cons, List.lookup_cons, ih]
        by_cases hxq : x = q
        · simp [hxq, hq]
        · have hne : (x == q) = false := by simpa using hxq
          simp [hne]

/-- Resolving a path marks it as resolved and changes no other mark. -/
@[simp] theorem mark?_resolve (p : Progress) (path x : Path) :
    (p.resolve path).mark? x = if x = path then some .resolved else p.mark? x := by
  rw [resolve, mark?_depend, mark?, lookup_setMark, mark?]

/-- Resolving a path meets it and no other. -/
@[simp] theorem met_resolve (p : Progress) (path x : Path) :
    (p.resolve path).Met x ↔ x = path ∨ p.Met x := by
  rw [Met, mark?_resolve]
  by_cases hx : x = path <;> simp [hx, Met]

/-- Resolving a path makes it a dependency. -/
@[simp] theorem mem_resolve (p : Progress) (path x : Path) :
    x ∈ (p.resolve path).dependencies ↔ x = path ∨ x ∈ p.dependencies := by
  rw [resolve, mem_depend]

end ImportClosure.Progress
