import ImportClosure.Proofs.Walk.Run
import Mathlib.Logic.Relation

/-!
# `ImportClosure.Proofs.Walk.Marks`: how a visit moves marks

A `Write` moves the mark of one path at most, from none to in progress or from in progress to
resolved, and takes no dependency away. Claiming a path is a write, and so are depending on a
path and resolving one that is in progress. `writes_next` says that a visit to a file in progress
is nothing but writes, whatever the answer about the file is.

A visit resolves the visited file, unless it passes it over, and keeps the marks of the other
files that were met before. What it meets anew is in progress, but for what a module reaches
beside documents, which is resolved.
-/

set_option autoImplicit false

namespace ImportClosure

open Relation (ReflTransGen)

namespace Progress

/-- One write to the progress. -/
structure Write (p q : Progress) : Prop where
  forward : ∀ x, q.mark? x = p.mark? x ∨
    (p.mark? x = none ∧ q.mark? x = some .inProgress) ∨
    (p.mark? x = some .inProgress ∧ q.mark? x = some .resolved)
  others : ∃ path, ∀ x, x ≠ path → q.mark? x = p.mark? x
  dependencies : ∀ x ∈ p.dependencies, x ∈ q.dependencies

variable {p q : Progress} {path : Path}

/-- Claiming a path is a write. -/
theorem write_of_claim? (h : p.claim? path = some q) : Write p q where
  forward x := by
    rw [mark?_of_claim? h]
    by_cases hx : x = path
    · subst hx
      exact Or.inr (Or.inl
        ⟨Option.not_isSome_iff_eq_none.mp (not_met_of_claim? h), if_pos rfl⟩)
    · exact Or.inl (if_neg hx)
  others := ⟨path, fun x hx => (mark?_of_claim? h x).trans (if_neg hx)⟩
  dependencies x hx := by rwa [dependencies_of_claim? h]

/-- Depending on a path is a write. -/
theorem write_depend (p : Progress) (path : Path) : Write p (p.depend path) where
  forward x := Or.inl (mark?_depend p path x)
  others := ⟨path, fun x _ => mark?_depend p path x⟩
  dependencies x hx := (mem_depend p path x).mpr (Or.inr hx)

/-- Resolving a path that is in progress is a write. -/
theorem write_resolve (h : p.mark? path = some .inProgress) : Write p (p.resolve path) where
  forward x := by
    rw [mark?_resolve]
    by_cases hx : x = path
    · subst hx
      exact Or.inr (Or.inr ⟨h, if_pos rfl⟩)
    · exact Or.inl (if_neg hx)
  others := ⟨path, fun x hx => (mark?_resolve p path x).trans (if_neg hx)⟩
  dependencies x hx := (mem_resolve p path x).mpr (Or.inr hx)

end Progress

namespace Walk

open Progress

variable (settings : Settings)

/-! ### The imports of a document -/

/-- `claimAll` keeps the marks of what was met before. -/
theorem mark?_claimAll_of_met (files : List Path) {p : Progress} {x : Path} (h : p.Met x) :
    (claimAll settings files p).2.mark? x = p.mark? x := by
  induction files using List.reverseRecOn with
  | nil => rfl
  | append_singleton files path ih =>
      rw [claimAll_append]
      split
      · exact ih
      · split
        · exact ih
        · rename_i hclaim
          -- The claimed path was not met, so it is another one.
          have hne : x ≠ path := by
            rintro rfl
            exact not_met_of_claim? hclaim ((met_claimAll settings files p x).mpr (Or.inl h))
          rw [mark?_of_claim? hclaim, if_neg hne, ih]

/-- What `claimAll` meets anew is in progress. -/
theorem mark?_claimAll_of_not_met (files : List Path) {p : Progress} {x : Path} (h : ¬p.Met x)
    (hafter : (claimAll settings files p).2.Met x) :
    (claimAll settings files p).2.mark? x = some .inProgress := by
  induction files using List.reverseRecOn with
  | nil => exact absurd hafter h
  | append_singleton files path ih =>
      rw [claimAll_append] at hafter ⊢
      split at hafter
      · exact ih hafter
      · split at hafter
        · exact ih hafter
        · rename_i hclaim
          rw [mark?_of_claim? hclaim]
          rcases (met_of_claim? hclaim x).mp hafter with rfl | hbefore
          · exact if_pos rfl
          · rw [ih hbefore, ite_self]

/-- `claimAll` is nothing but writes. -/
theorem writes_claimAll (files : List Path) (p : Progress) :
    ReflTransGen Write p (claimAll settings files p).2 := by
  induction files using List.reverseRecOn with
  | nil => exact ReflTransGen.refl
  | append_singleton files path ih =>
      rw [claimAll_append]
      split
      · exact ih
      · split
        · exact ih
        · rename_i hclaim
          exact ih.tail (write_of_claim? hclaim)

/-! ### The files that a module reaches -/

/-- `takeReached` keeps the marks of what was met before. -/
theorem mark?_takeReached_of_met (files : List Path) {p : Progress} {x : Path} (h : p.Met x) :
    (takeReached settings files p).2.mark? x = p.mark? x := by
  induction files using List.reverseRecOn with
  | nil => rfl
  | append_singleton files path ih =>
      have hmet := (met_takeReached settings files p x).mpr (Or.inl h)
      rw [takeReached_append]
      split
      · split
        · exact ih
        · rename_i hclaim
          have hne : x ≠ path := by
            rintro rfl
            exact not_met_of_claim? hclaim hmet
          rw [mark?_of_claim? hclaim, if_neg hne, ih]
      · split
        · rw [mark?_depend, ih]
        · rename_i hclaim
          have hne : x ≠ path := by
            rintro rfl
            exact not_met_of_claim? hclaim ((met_depend _ x x).mpr hmet)
          rw [mark?_resolve, if_neg hne, mark?_of_claim? hclaim, if_neg hne, mark?_depend, ih]

/-- What `takeReached` meets anew is in progress if it is a document, and resolved if not. -/
theorem mark?_takeReached_of_not_met (files : List Path) {p : Progress} {x : Path} (h : ¬p.Met x)
    (hafter : (takeReached settings files p).2.Met x) :
    (takeReached settings files p).2.mark? x
      = some (if classify settings x = some .document then .inProgress else .resolved) := by
  induction files using List.reverseRecOn with
  | nil => exact absurd hafter h
  | append_singleton files path ih =>
      rw [takeReached_append] at hafter ⊢
      by_cases hkind : classify settings path = some .document
      · rw [if_pos hkind] at hafter ⊢
        cases hclaim : (takeReached settings files p).2.claim? path with
        | none =>
            rw [hclaim] at hafter
            exact ih hafter
        | some q =>
            rw [hclaim] at hafter
            rw [mark?_of_claim? hclaim]
            by_cases hx : x = path
            · rw [hx, if_pos rfl, if_pos hkind]
            · rw [if_neg hx, ih (((met_of_claim? hclaim x).mp hafter).resolve_left hx)]
      · rw [if_neg hkind] at hafter ⊢
        cases hclaim : ((takeReached settings files p).2.depend path).claim? path with
        | none =>
            rw [hclaim, met_depend] at hafter
            rw [mark?_depend, ih hafter]
        | some q =>
            rw [hclaim, met_resolve, met_of_claim? hclaim, met_depend] at hafter
            rw [mark?_resolve]
            by_cases hx : x = path
            · rw [hx, if_pos rfl, if_neg hkind]
            · rw [if_neg hx, mark?_of_claim? hclaim, if_neg hx, mark?_depend,
                ih ((hafter.resolve_left hx).resolve_left hx)]

/-- `takeReached` is nothing but writes. -/
theorem writes_takeReached (files : List Path) (p : Progress) :
    ReflTransGen Write p (takeReached settings files p).2 := by
  induction files using List.reverseRecOn with
  | nil => exact ReflTransGen.refl
  | append_singleton files path ih =>
      rw [takeReached_append]
      split
      · split
        · exact ih
        · rename_i hclaim
          exact ih.tail (write_of_claim? hclaim)
      -- A file that is no document is depended on, claimed and resolved at once.
      · have hdepend := ih.tail (write_depend _ path)
        split
        · exact hdepend
        · rename_i hclaim
          refine (hdepend.tail (write_of_claim? hclaim)).tail (write_resolve ?_)
          rw [mark?_of_claim? hclaim, if_pos rfl]

/-! ### A whole visit -/

variable {document : Path → Except Trouble (List Path)}
  {module : Path → Except Analyzer.Failure (List Path)} {a : Artifact} {p : Progress} {x : Path}

/-- A file that is passed over leaves the progress as it is. -/
theorem next_of_passesOver (h : PassesOver document a) :
    next settings document module a p = ([], p) := by
  obtain ⟨path, kind⟩ := a
  obtain ⟨rfl, trouble, hdoc⟩ : kind = .document ∧ ∃ trouble, document path = .error trouble := h
  simp [next, takeDocument, hdoc]

/-- A visit resolves the visited file, unless it is passed over. -/
theorem mark?_next_self (h : ¬PassesOver document a) :
    (next settings document module a p).2.mark? a.path = some .resolved := by
  obtain ⟨path, kind⟩ := a
  cases kind with
  | document =>
      cases hdoc : document path with
      | error trouble => exact absurd ⟨rfl, trouble, hdoc⟩ h
      | ok files => simp [next, takeDocument, hdoc]
  | module => cases hmod : module path <;> simp [next, takeModule, hmod]

/-- A visit keeps the marks of the other files that were met before. -/
theorem mark?_next_of_met (h : p.Met x) (hne : x ≠ a.path) :
    (next settings document module a p).2.mark? x = p.mark? x := by
  obtain ⟨path, kind⟩ := a
  cases kind with
  | document =>
      cases hdoc : document path with
      | error trouble => simp [next, takeDocument, hdoc]
      | ok files =>
          simp only [next, takeDocument, hdoc, mark?_resolve]
          rw [if_neg hne, mark?_claimAll_of_met settings files h]
  | module =>
      cases hmod : module path with
      | error failure =>
          simp only [next, takeModule, hmod, mark?_resolve]
          exact if_neg hne
      | ok files =>
          simp only [next, takeModule, hmod, mark?_resolve]
          rw [if_neg hne, mark?_takeReached_of_met settings _ h]

/-- What a visit meets anew is in progress, but for what a module reaches beside documents. -/
theorem mark?_next_of_not_met (h : ¬p.Met x) (hne : x ≠ a.path)
    (hafter : (next settings document module a p).2.Met x) :
    (next settings document module a p).2.mark? x
      = some (if a.kind = .document ∨ classify settings x = some .document then .inProgress
        else .resolved) := by
  obtain ⟨path, kind⟩ := a
  cases kind with
  | document =>
      cases hdoc : document path with
      | error trouble =>
          simp only [next, takeDocument, hdoc] at hafter
          exact absurd hafter h
      | ok files =>
          simp only [next, takeDocument, hdoc, met_resolve, mark?_resolve] at hafter ⊢
          rw [if_neg hne, mark?_claimAll_of_not_met settings files h (hafter.resolve_left hne)]
          simp
  | module =>
      cases hmod : module path with
      | error failure =>
          simp only [next, takeModule, hmod, met_resolve] at hafter
          exact absurd (hafter.resolve_left hne) h
      | ok files =>
          simp only [next, takeModule, hmod, met_resolve, mark?_resolve] at hafter ⊢
          rw [if_neg hne, mark?_takeReached_of_not_met settings _ h (hafter.resolve_left hne)]
          simp

/-- A visit to a file in progress is nothing but writes. -/
theorem writes_next (h : p.mark? a.path = some .inProgress) :
    ReflTransGen Write p (next settings document module a p).2 := by
  have hmet : p.Met a.path := met_of_mark? h
  obtain ⟨path, kind⟩ := a
  cases kind with
  | document =>
      cases hdoc : document path with
      | error trouble => simpa only [next, takeDocument, hdoc] using ReflTransGen.refl
      | ok files =>
          simp only [next, takeDocument, hdoc]
          refine (writes_claimAll settings files p).tail (write_resolve ?_)
          rw [mark?_claimAll_of_met settings files hmet, h]
  | module =>
      cases hmod : module path with
      | error failure =>
          simp only [next, takeModule, hmod]
          exact ReflTransGen.single (write_resolve h)
      | ok files =>
          simp only [next, takeModule, hmod]
          refine (writes_takeReached settings _ p).tail (write_resolve ?_)
          rw [mark?_takeReached_of_met settings _ hmet, h]

/-- A walk begins with one write at most. -/
theorem writes_begun (entry : Path) (p : Progress) :
    ReflTransGen Write p (begun settings entry p).2 := by
  rcases begun_cases settings entry p with ⟨heq, -⟩ | ⟨kind, q, -, hclaim, heq⟩
  · rw [heq]
  · rw [heq]
    exact ReflTransGen.single (write_of_claim? hclaim)

end Walk

end ImportClosure
