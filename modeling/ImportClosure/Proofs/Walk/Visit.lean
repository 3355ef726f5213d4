import ImportClosure.Proofs.Text.Sorted
import ImportClosure.Proofs.Walk.Progress
import ImportClosure.Walk.Basic
import Mathlib.Data.List.Induction

/-!
# `ImportClosure.Proofs.Walk.Visit`: what one visit does

A visit asks the sources about one file and takes the answer in. `takeDocument` and
`takeModule` are the part after the answer, and `visit_value` says that a visit is nothing
else. Of what a document imports, `claimAll` meets the recognized files and puts those that
are new on the stack; of what a module reaches, `takeReached` meets all files, puts the new
documents on the stack and depends on the rest.
-/

set_option autoImplicit false

namespace ImportClosure.Walk

open Progress

variable (settings : Settings)

/-! ### The imports of a document -/

/-- One more file for `claimAll`. -/
theorem claimAll_append (files : List Path) (path : Path) (p : Progress) :
    claimAll settings (files ++ [path]) p
      = match classify settings path with
        | none => claimAll settings files p
        | some kind => match (claimAll settings files p).2.claim? path with
          | none => claimAll settings files p
          | some q => (⟨path, kind⟩ :: (claimAll settings files p).1, q) := by
  -- One step of the fold, from whatever the files before it come to.
  unfold claimAll
  rw [List.foldl_append]
  generalize List.foldl _ _ files = before
  obtain ⟨pending, q⟩ := before
  cases hkind : classify settings path with
  | none => simp [hkind]
  | some kind => cases hclaim : q.claim? path <;> simp [hkind, hclaim]

/-- `claimAll` meets the recognized files. -/
theorem met_claimAll (files : List Path) (p : Progress) (x : Path) :
    (claimAll settings files p).2.Met x
      ↔ p.Met x ∨ (x ∈ files ∧ (classify settings x).isSome) := by
  -- The fold takes the files from the left, so the induction is on the last one.
  induction files using List.reverseRecOn with
  | nil => simp [claimAll]
  | append_singleton files path ih =>
      rw [claimAll_append, List.mem_append, List.mem_singleton]
      cases hkind : classify settings path with
      | none =>
          have hnot : x = path → ¬(classify settings x).isSome := by
            rintro rfl
            simp [hkind]
          grind
      | some kind =>
          cases hclaim : (claimAll settings files p).2.claim? path with
          | none =>
              have hmet := (claim?_eq_none_iff _ _).mp hclaim
              grind
          | some q =>
              have hq := met_of_claim? hclaim x
              grind

/-- `claimAll` leaves the dependencies as they are. -/
theorem dependencies_claimAll (files : List Path) (p : Progress) :
    (claimAll settings files p).2.dependencies = p.dependencies := by
  induction files using List.reverseRecOn with
  | nil => rfl
  | append_singleton files path ih =>
      rw [claimAll_append]
      split
      · exact ih
      · split
        · exact ih
        · rename_i hclaim
          exact (dependencies_of_claim? hclaim).trans ih

/-- `claimAll` puts the recognized files on the stack that were not met before. -/
theorem mem_claimAll (files : List Path) (p : Progress) (a : Artifact) :
    a ∈ (claimAll settings files p).1
      ↔ a.path ∈ files ∧ classify settings a.path = some a.kind ∧ ¬p.Met a.path := by
  induction files using List.reverseRecOn with
  | nil => simp [claimAll]
  | append_singleton files path ih =>
      have hmet := met_claimAll settings files p path
      rw [claimAll_append, List.mem_append, List.mem_singleton]
      cases hkind : classify settings path with
      | none => grind
      | some kind =>
          cases hclaim : (claimAll settings files p).2.claim? path with
          | none =>
              have hold := (claim?_eq_none_iff _ _).mp hclaim
              grind
          | some q =>
              have hnew := not_met_of_claim? hclaim
              obtain ⟨x, k⟩ := a
              simp only [List.mem_cons, Artifact.mk.injEq]
              grind

/-- `claimAll` puts no path on the stack twice. -/
theorem nodup_claimAll (files : List Path) (p : Progress) :
    ((claimAll settings files p).1.map Artifact.path).Nodup := by
  induction files using List.reverseRecOn with
  | nil => exact List.nodup_nil
  | append_singleton files path ih =>
      rw [claimAll_append]
      split
      · exact ih
      · split
        · exact ih
        · rename_i hclaim
          rw [List.map_cons, List.nodup_cons]
          refine ⟨fun hmem => not_met_of_claim? hclaim ?_, ih⟩
          -- A file that is put on the stack has been met, and cannot be claimed again.
          obtain ⟨a, ha, rfl : a.path = path⟩ := List.mem_map.mp hmem
          obtain ⟨hfile, hkind, -⟩ := (mem_claimAll settings files p a).mp ha
          exact (met_claimAll settings files p a.path).mpr (Or.inr ⟨hfile, by simp [hkind]⟩)

/-! ### The files that a module reaches -/

/-- One more file for `takeReached`. -/
theorem takeReached_append (files : List Path) (path : Path) (p : Progress) :
    takeReached settings (files ++ [path]) p
      = if classify settings path = some .document then
          match (takeReached settings files p).2.claim? path with
          | none => takeReached settings files p
          | some q => (⟨path, .document⟩ :: (takeReached settings files p).1, q)
        else
          match ((takeReached settings files p).2.depend path).claim? path with
          | none => ((takeReached settings files p).1, (takeReached settings files p).2.depend path)
          | some q => ((takeReached settings files p).1, q.resolve path) := by
  unfold takeReached
  rw [List.foldl_append]
  generalize List.foldl _ _ files = before
  obtain ⟨pending, q⟩ := before
  by_cases hkind : classify settings path = some .document
  · cases hclaim : q.claim? path <;> simp [hkind, hclaim]
  · cases hclaim : (q.depend path).claim? path <;> simp [hkind, hclaim]

/-- `takeReached` meets all the files. -/
theorem met_takeReached (files : List Path) (p : Progress) (x : Path) :
    (takeReached settings files p).2.Met x ↔ p.Met x ∨ x ∈ files := by
  induction files using List.reverseRecOn with
  | nil => simp [takeReached]
  | append_singleton files path ih =>
      rw [takeReached_append, List.mem_append, List.mem_singleton]
      split
      -- A document is claimed, and any other file depended on first.
      · cases hclaim : (takeReached settings files p).2.claim? path with
        | none =>
            have hmet := (claim?_eq_none_iff _ _).mp hclaim
            grind
        | some q =>
            have hq := met_of_claim? hclaim x
            grind
      · cases hclaim : ((takeReached settings files p).2.depend path).claim? path with
        | none =>
            have hmet := (claim?_eq_none_iff _ _).mp hclaim
            rw [met_depend] at hmet
            simp only [met_depend]
            grind
        | some q =>
            have hq := met_of_claim? hclaim x
            rw [met_depend] at hq
            simp only [met_resolve]
            grind

/-- `takeReached` depends on the files that are no documents. -/
theorem mem_dependencies_takeReached (files : List Path) (p : Progress) (x : Path) :
    x ∈ (takeReached settings files p).2.dependencies
      ↔ x ∈ p.dependencies ∨ (x ∈ files ∧ classify settings x ≠ some .document) := by
  induction files using List.reverseRecOn with
  | nil => simp [takeReached]
  | append_singleton files path ih =>
      rw [takeReached_append, List.mem_append, List.mem_singleton]
      split
      · cases hclaim : (takeReached settings files p).2.claim? path with
        | none => grind
        | some q =>
            have hq := dependencies_of_claim? hclaim
            grind
      · cases hclaim : ((takeReached settings files p).2.depend path).claim? path with
        | none =>
            simp only [mem_depend]
            grind
        | some q =>
            -- The file is depended on twice, which is the same as once.
            have hq := dependencies_of_claim? hclaim
            simp only [mem_resolve, hq, mem_depend]
            grind

/-- `takeReached` puts the documents on the stack that were not met before. -/
theorem mem_takeReached (files : List Path) (p : Progress) (a : Artifact) :
    a ∈ (takeReached settings files p).1
      ↔ a.path ∈ files ∧ a.kind = .document ∧ classify settings a.path = some .document ∧
        ¬p.Met a.path := by
  induction files using List.reverseRecOn with
  | nil => simp [takeReached]
  | append_singleton files path ih =>
      have hmet := met_takeReached settings files p path
      rw [takeReached_append, List.mem_append, List.mem_singleton]
      split
      · cases hclaim : (takeReached settings files p).2.claim? path with
        | none =>
            have hold := (claim?_eq_none_iff _ _).mp hclaim
            grind
        | some q =>
            have hnew := not_met_of_claim? hclaim
            obtain ⟨x, k⟩ := a
            simp only [List.mem_cons, Artifact.mk.injEq]
            grind
      · cases hclaim : ((takeReached settings files p).2.depend path).claim? path <;> grind

/-- `takeReached` puts no path on the stack twice. -/
theorem nodup_takeReached (files : List Path) (p : Progress) :
    ((takeReached settings files p).1.map Artifact.path).Nodup := by
  induction files using List.reverseRecOn with
  | nil => exact List.nodup_nil
  | append_singleton files path ih =>
      rw [takeReached_append]
      split
      · split
        · exact ih
        · rename_i hclaim
          rw [List.map_cons, List.nodup_cons]
          refine ⟨fun hmem => not_met_of_claim? hclaim ?_, ih⟩
          obtain ⟨a, ha, rfl : a.path = path⟩ := List.mem_map.mp hmem
          have hfile := ((mem_takeReached settings files p a).mp ha).1
          exact (met_takeReached settings files p a.path).mpr (Or.inr hfile)
      · split <;> exact ih

/-! ### A whole visit -/

/-- Takes in the answer about a document. -/
def takeDocument (path : Path) (answer : Except Trouble (List Path)) (p : Progress) :
    List Artifact × Progress :=
  match answer with
  | .error _ => ([], p)
  | .ok files => ((claimAll settings files p).1, (claimAll settings files p).2.resolve path)

/-- Takes in the answer about a module. -/
def takeModule (path : Path) (answer : Except Analyzer.Failure (List Path)) (p : Progress) :
    List Artifact × Progress :=
  match answer with
  | .error _ => ([], p.resolve path)
  | .ok files =>
    ((takeReached settings (Text.sortedSet files) p).1,
      (takeReached settings (Text.sortedSet files) p).2.resolve path)

variable {σ : Type} (sources : Sources σ)

/-- A visit to a document takes in the answer of the sources. -/
theorem visitDocument_value (path : Path) (p : Progress) (state : σ) :
    (visitDocument settings sources path p state).value
      = ((takeDocument settings path (sources.document path state).value.1 p).1,
          (takeDocument settings path (sources.document path state).value.1 p).2,
          (sources.document path state).value.2) := by
  rw [visitDocument, Traced.value_bind]
  rcases (sources.document path state).value with ⟨_ | files, state'⟩ <;> rfl

/-- A visit to a module takes in the answer of the sources. -/
theorem visitModule_value (path : Path) (p : Progress) (state : σ) :
    (visitModule settings sources path p state).value
      = ((takeModule settings path (sources.module path state).value.1 p).1,
          (takeModule settings path (sources.module path state).value.1 p).2,
          (sources.module path state).value.2) := by
  rw [visitModule, Traced.value_bind]
  rcases (sources.module path state).value with ⟨_ | files, state'⟩ <;> rfl

end ImportClosure.Walk
