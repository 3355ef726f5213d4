import ImportClosure.Proofs.Walk.Visit
import Mathlib.Data.Finset.Card
import Mathlib.Data.Finset.Dedup

/-!
# `ImportClosure.Proofs.Walk.Run`: whole runs of visits

A visit is the function `next` of the file, the progress, and the answers that the sources give
in their state: `visit_next`. `run_induction` carries what every visit keeps through a run. Where
the answers do not depend on the questions before (`Sources.Answers`), `run_preserves` is the same
for what `next` keeps.

`run_finishes` says how many steps a run needs. Each path is put on the stack at most once,
for it is met in the same step. So if all paths that can come onto the stack are among
finitely many, the stack together with the paths not yet met bounds the steps.

A walk is a run from the stack that it has `begun` with: `walk_value`.
-/

set_option autoImplicit false

namespace ImportClosure

namespace Sources

variable {σ : Type}

/-- What the sources answer about documents in a state. -/
def documentAt (sources : Sources σ) (state : σ) (path : Path) : Except Trouble (List Path) :=
  (sources.document path state).value.1

/-- What the sources answer about modules in a state. -/
def moduleAt (sources : Sources σ) (state : σ) (path : Path) :
    Except Analyzer.Failure (List Path) :=
  (sources.module path state).value.1

/-- The state of the sources after the question about a file. -/
def after (sources : Sources σ) (state : σ) (a : Artifact) : σ :=
  match a.kind with
  | .document => (sources.document a.path state).value.2
  | .module => (sources.module a.path state).value.2

/-- The sources answer by two functions, whatever was asked before, as long as their state is
a good one. -/
structure Answers (sources : Sources σ) (Good : σ → Prop)
    (document : Path → Except Trouble (List Path))
    (module : Path → Except Analyzer.Failure (List Path)) : Prop where
  document_eq : ∀ path state, Good state →
    (sources.document path state).value.1 = document path
  good_document : ∀ path state, Good state → Good (sources.document path state).value.2
  module_eq : ∀ path state, Good state → (sources.module path state).value.1 = module path
  good_module : ∀ path state, Good state → Good (sources.module path state).value.2

variable {sources : Sources σ} {Good : σ → Prop}
  {document : Path → Except Trouble (List Path)}
  {module : Path → Except Analyzer.Failure (List Path)}

/-- In a good state the answers about documents are those of the function. -/
theorem Answers.documentAt_eq (h : sources.Answers Good document module) {state : σ}
    (hgood : Good state) : sources.documentAt state = document :=
  funext fun path => h.document_eq path state hgood

/-- In a good state the answers about modules are those of the function. -/
theorem Answers.moduleAt_eq (h : sources.Answers Good document module) {state : σ}
    (hgood : Good state) : sources.moduleAt state = module :=
  funext fun path => h.module_eq path state hgood

/-- A question leaves a good state. -/
theorem Answers.good_after (h : sources.Answers Good document module) (state : σ)
    (hgood : Good state) (a : Artifact) : Good (sources.after state a) := by
  unfold after
  split
  · exact h.good_document a.path state hgood
  · exact h.good_module a.path state hgood

end Sources

namespace Walk

variable (settings : Settings) {σ : Type}

/-! ### Induction on a run -/

/-- What every visit keeps, a run keeps. -/
theorem run_induction (sources : Sources σ) {motive : List Artifact → Progress → σ → Prop}
    (step : ∀ a stack p state, motive (a :: stack) p state →
      motive ((visit settings sources a p state).value.1 ++ stack)
        (visit settings sources a p state).value.2.1
        (visit settings sources a p state).value.2.2)
    (steps : Nat) (stack : List Artifact) (p : Progress) (state : σ)
    (h : motive stack p state) :
    motive (run settings sources steps stack p state).value.1
      (run settings sources steps stack p state).value.2.1
      (run settings sources steps stack p state).value.2.2 := by
  induction steps generalizing stack p state with
  | zero => exact h
  | succ n ih =>
      cases stack with
      | nil => exact h
      | cons a stack => exact ih _ _ _ (step a stack p state h)

variable {sources : Sources σ} {Good : σ → Prop}
  {document : Path → Except Trouble (List Path)}
  {module : Path → Except Analyzer.Failure (List Path)}

/-- The files that come onto the stack by a visit, and the progress after it, where the
answers are those of two functions. -/
def next (document : Path → Except Trouble (List Path))
    (module : Path → Except Analyzer.Failure (List Path)) (a : Artifact) (p : Progress) :
    List Artifact × Progress :=
  match a.kind with
  | .document => takeDocument settings a.path (document a.path) p
  | .module => takeModule settings a.path (module a.path) p

/-- A visit is `next` for the answers of the sources in their state. -/
theorem visit_next (sources : Sources σ) (a : Artifact) (p : Progress) (state : σ) :
    (visit settings sources a p state).value
      = ((next settings (sources.documentAt state) (sources.moduleAt state) a p).1,
          (next settings (sources.documentAt state) (sources.moduleAt state) a p).2,
          sources.after state a) := by
  obtain ⟨path, kind⟩ := a
  cases kind with
  | document => exact visitDocument_value settings sources path p state
  | module => exact visitModule_value settings sources path p state

/-- A visit in a good state is `next` for the two functions, and leaves a good state. -/
theorem visit_value (h : sources.Answers Good document module) (a : Artifact) (p : Progress)
    {state : σ} (hgood : Good state) :
    (visit settings sources a p state).value.1 = (next settings document module a p).1 ∧
    (visit settings sources a p state).value.2.1 = (next settings document module a p).2 ∧
    Good (visit settings sources a p state).value.2.2 := by
  rw [visit_next, h.documentAt_eq hgood, h.moduleAt_eq hgood]
  exact ⟨rfl, rfl, h.good_after state hgood a⟩

/-- What `next` keeps, a run from a good state keeps. -/
theorem run_preserves (h : sources.Answers Good document module)
    {motive : List Artifact → Progress → Prop}
    (step : ∀ a stack p, motive (a :: stack) p →
      motive ((next settings document module a p).1 ++ stack)
        (next settings document module a p).2)
    (steps : Nat) (stack : List Artifact) (p : Progress) {state : σ} (hgood : Good state)
    (hmotive : motive stack p) :
    motive (run settings sources steps stack p state).value.1
      (run settings sources steps stack p state).value.2.1 ∧
    Good (run settings sources steps stack p state).value.2.2 := by
  refine run_induction settings sources (motive := fun stack p state => motive stack p ∧ Good state)
    ?_ steps stack p state ⟨hmotive, hgood⟩
  -- The state stays good beside what `next` keeps, so that each visit is `next`.
  rintro a stack p state ⟨hm, hg⟩
  obtain ⟨hpending, hprogress, hafter⟩ := visit_value settings h a p hg
  rw [hpending, hprogress]
  exact ⟨step a stack p hm, hafter⟩

/-! ### What a visit does -/

/-- The files that a visit takes in: the recognized files that a document imports, or all that a
module reaches. -/
def taken (document : Path → Except Trouble (List Path))
    (module : Path → Except Analyzer.Failure (List Path)) (a : Artifact) : List Path :=
  match a.kind with
  | .document => match document a.path with
    | .ok files => files.filter fun file => (classify settings file).isSome
    | .error _ => []
  | .module => match module a.path with
    | .ok files => files
    | .error _ => []

variable {settings} in
/-- Where the files come from that a visit takes in. -/
theorem mem_taken_iff {a : Artifact} {file : Path} :
    file ∈ taken settings document module a
      ↔ (a.kind = .document ∧ ∃ files, document a.path = .ok files ∧ file ∈ files ∧
          (classify settings file).isSome) ∨
        (a.kind = .module ∧ ∃ files, module a.path = .ok files ∧ file ∈ files) := by
  obtain ⟨path, kind⟩ := a
  cases kind with
  | document => cases hdoc : document path <;> simp [taken, hdoc]
  | module => cases hmod : module path <;> simp [taken, hmod]

/-- The file is a document that a visit passes over, for it cannot be read. -/
def PassesOver (document : Path → Except Trouble (List Path)) (a : Artifact) : Prop :=
  a.kind = .document ∧ ∃ trouble, document a.path = .error trouble

/-- What was met after a visit was met before, is taken in, or is the visited file. -/
theorem met_next_iff (a : Artifact) (p : Progress) (x : Path) :
    (next settings document module a p).2.Met x
      ↔ p.Met x ∨ x ∈ taken settings document module a ∨ (x = a.path ∧ ¬PassesOver document a) := by
  obtain ⟨path, kind⟩ := a
  cases kind with
  | document =>
      cases hdoc : document path with
      | error trouble => simp [next, takeDocument, taken, PassesOver, hdoc]
      | ok files =>
          simp only [next, takeDocument, taken, PassesOver, hdoc, Progress.met_resolve,
            met_claimAll, List.mem_filter]
          simp only [reduceCtorEq, exists_false, and_false, not_false_eq_true, and_true]
          tauto
  | module =>
      cases hmod : module path with
      | error failure => simp [next, takeModule, taken, PassesOver, hmod, or_comm]
      | ok files =>
          simp only [next, takeModule, taken, PassesOver, hmod, Progress.met_resolve,
            met_takeReached, Text.mem_sortedSet]
          simp only [reduceCtorEq, false_and, not_false_eq_true, and_true]
          tauto

/-- What a visit meets anew, beside the visited file, it takes in. -/
theorem mem_taken_of_met_next {a : Artifact} {p : Progress} {x : Path}
    (h : (next settings document module a p).2.Met x) (hnew : ¬p.Met x) (hne : x ≠ a.path) :
    x ∈ taken settings document module a := by
  rcases (met_next_iff settings a p x).mp h with hx | hx | ⟨rfl, -⟩
  · exact absurd hx hnew
  · exact hx
  · exact absurd rfl hne

/-- What comes onto the stack by a visit was taken in and not met before: all recognized files
that a document imports, and the documents that a module reaches. -/
theorem mem_next_iff (a b : Artifact) (p : Progress) :
    b ∈ (next settings document module a p).1
      ↔ b.path ∈ taken settings document module a ∧ classify settings b.path = some b.kind ∧
        (a.kind = .document ∨ b.kind = .document) ∧ ¬p.Met b.path := by
  obtain ⟨path, kind⟩ := a
  cases kind with
  | document =>
      cases hdoc : document path with
      | error trouble => simp [next, takeDocument, taken, hdoc]
      | ok files =>
          -- `claimAll` asks for the recognized files by itself.
          simp only [next, takeDocument, taken, hdoc, mem_claimAll, List.mem_filter, true_or,
            true_and, and_assoc]
          refine and_congr_right fun _ => ⟨fun h => ⟨by simp [h.1], h⟩, And.right⟩
  | module =>
      cases hmod : module path with
      | error failure => simp [next, takeModule, taken, hmod]
      | ok files =>
          simp only [next, takeModule, taken, hmod, mem_takeReached, Text.mem_sortedSet,
            reduceCtorEq, false_or]
          refine and_congr_right fun _ => ⟨fun h => ?_, fun h => ?_⟩
          · exact ⟨by rw [h.1]; exact h.2.1, h.1, h.2.2⟩
          · exact ⟨h.2.1, by rw [← h.2.1]; exact h.1, h.2.2⟩

/-- The dependencies after a visit: those before it, the visited file, and what a module takes in
beside documents. -/
theorem mem_dependencies_next_iff (a : Artifact) (p : Progress) (x : Path) :
    x ∈ (next settings document module a p).2.dependencies
      ↔ x ∈ p.dependencies ∨ (x = a.path ∧ ¬PassesOver document a) ∨
        (a.kind = .module ∧ x ∈ taken settings document module a ∧
          classify settings x ≠ some .document) := by
  obtain ⟨path, kind⟩ := a
  cases kind with
  | document =>
      cases hdoc : document path with
      | error trouble => simp [next, takeDocument, PassesOver, hdoc]
      | ok files =>
          simp only [next, takeDocument, PassesOver, hdoc, Progress.mem_resolve,
            dependencies_claimAll]
          simp [or_comm]
  | module =>
      cases hmod : module path with
      | error failure => simp [next, takeModule, taken, PassesOver, hmod, or_comm]
      | ok files =>
          simp only [next, takeModule, taken, PassesOver, hmod, Progress.mem_resolve,
            mem_dependencies_takeReached, Text.mem_sortedSet]
          simp only [reduceCtorEq, false_and, not_false_eq_true, and_true, true_and]
          tauto

/-- What comes onto the stack was not met before the visit, and is met after it. -/
theorem met_of_mem_next {a b : Artifact} {p : Progress}
    (h : b ∈ (next settings document module a p).1) :
    ¬p.Met b.path ∧ (next settings document module a p).2.Met b.path := by
  obtain ⟨htaken, -, -, hnew⟩ := (mem_next_iff settings a b p).mp h
  exact ⟨hnew, (met_next_iff settings a p b.path).mpr (Or.inr (Or.inl htaken))⟩

/-- No path comes onto the stack twice in one visit. -/
theorem nodup_next (a : Artifact) (p : Progress) :
    ((next settings document module a p).1.map Artifact.path).Nodup := by
  unfold next takeDocument takeModule
  split
  · split
    · exact List.nodup_nil
    · exact nodup_claimAll settings _ p
  · split
    · exact List.nodup_nil
    · exact nodup_takeReached settings _ p

/-- What comes onto the stack by a visit does not repeat files that were met before it. -/
theorem nodup_next_append (a : Artifact) {p : Progress} {old : List Artifact}
    (hold : (old.map Artifact.path).Nodup) (hmet : ∀ b ∈ old, p.Met b.path) :
    (((next settings document module a p).1 ++ old).map Artifact.path).Nodup := by
  rw [List.map_append, List.nodup_append']
  refine ⟨nodup_next settings a p, hold, List.disjoint_left.mpr fun x hx hx' => ?_⟩
  obtain ⟨b, hb, rfl⟩ := List.mem_map.mp hx
  obtain ⟨c, hc, hpath⟩ := List.mem_map.mp hx'
  exact (met_of_mem_next settings hb).1 (hpath ▸ hmet c hc)

/-! ### Runs end -/

/-- All paths that can come onto the stack are among `paths`. -/
def Bounded (document : Path → Except Trouble (List Path))
    (module : Path → Except Analyzer.Failure (List Path)) (paths : Finset Path) : Prop :=
  ∀ a, ∀ file ∈ taken settings document module a, file ∈ paths

open Classical in
/-- The paths among some that have not been met. -/
noncomputable def unmet (paths : Finset Path) (p : Progress) : Finset Path :=
  paths.filter fun path => ¬p.Met path

/-- There are no more of them than paths. -/
theorem card_unmet_le (paths : Finset Path) (p : Progress) : (unmet paths p).card ≤ paths.card := by
  classical
  exact Finset.card_filter_le _ _

/-- A visit meets at least as many of the paths as it puts on the stack. -/
theorem length_next_le {paths : Finset Path} (h : Bounded settings document module paths)
    (a : Artifact) (p : Progress) :
    (next settings document module a p).1.length
      + (unmet paths (next settings document module a p).2).card ≤ (unmet paths p).card := by
  classical
  have hcard : ((next settings document module a p).1.map Artifact.path).toFinset.card
      = (next settings document module a p).1.length := by
    rw [List.toFinset_card_of_nodup (nodup_next settings a p), List.length_map]
  -- What comes onto the stack and what is still unmet are disjoint, and were all unmet before.
  rw [← hcard, ← Finset.card_union_of_disjoint]
  · apply Finset.card_le_card
    intro x hx
    rcases Finset.mem_union.mp hx with hx | hx
    · obtain ⟨b, hb, rfl⟩ := List.mem_map.mp (List.mem_toFinset.mp hx)
      obtain ⟨htaken, -, -, hnew⟩ := (mem_next_iff settings a b p).mp hb
      exact Finset.mem_filter.mpr ⟨h a b.path htaken, hnew⟩
    · obtain ⟨hmem, hnot⟩ := Finset.mem_filter.mp hx
      exact Finset.mem_filter.mpr
        ⟨hmem, fun hmet => hnot ((met_next_iff settings a p x).mpr (Or.inl hmet))⟩
  · refine Finset.disjoint_left.mpr fun x hx hunmet => ?_
    obtain ⟨b, hb, rfl⟩ := List.mem_map.mp (List.mem_toFinset.mp hx)
    exact (Finset.mem_filter.mp hunmet).2 (met_of_mem_next settings hb).2

/-- With as many steps as there are files on the stack and paths not yet met, the stack is
empty in the end. -/
theorem run_finishes {paths : Finset Path}
    (hafter : ∀ state, Good state → ∀ a, Good (sources.after state a))
    (hbound : ∀ state, Good state →
      Bounded settings (sources.documentAt state) (sources.moduleAt state) paths)
    (steps : Nat) (stack : List Artifact) (p : Progress) {state : σ} (hgood : Good state)
    (hsteps : stack.length + (unmet paths p).card ≤ steps) :
    (run settings sources steps stack p state).value.1 = [] := by
  induction steps generalizing stack p state with
  | zero =>
      have hstack : stack = [] := List.length_eq_zero_iff.mp (by omega)
      rw [hstack]
      rfl
  | succ n ih =>
      cases stack with
      | nil => rfl
      | cons a stack =>
          have hlength := length_next_le settings (hbound state hgood) a p
          rw [List.length_cons] at hsteps
          rw [run, Traced.value_bind, visit_next]
          refine ih _ _ (hafter state hgood a) ?_
          -- The visited file leaves the stack, and what comes onto it was unmet before.
          rw [List.length_append]
          omega

/-! ### Walks -/

/-- The stack and the progress that a walk begins with: the claimed entry, or nothing more than
before if the entry is passed over. -/
def begun (entry : Path) (p : Progress) : List Artifact × Progress :=
  match classify settings entry with
  | none => ([], p)
  | some kind => match p.claim? entry with
    | none => ([], p)
    | some q => ([⟨entry, kind⟩], q)

/-- A walk begins with a recognized entry that was not met before, or with nothing. -/
theorem begun_cases (entry : Path) (p : Progress) :
    (begun settings entry p = ([], p) ∧ (classify settings entry = none ∨ p.Met entry)) ∨
      ∃ kind q, classify settings entry = some kind ∧ p.claim? entry = some q ∧
        begun settings entry p = ([⟨entry, kind⟩], q) := by
  unfold begun
  cases hkind : classify settings entry with
  | none => exact Or.inl ⟨rfl, Or.inl rfl⟩
  | some kind =>
      cases hclaim : p.claim? entry with
      | none => exact Or.inl ⟨rfl, Or.inr ((Progress.claim?_eq_none_iff p entry).mp hclaim)⟩
      | some q => exact Or.inr ⟨kind, q, rfl, rfl, rfl⟩

/-- A walk begins with one file at most. -/
theorem length_begun_le (entry : Path) (p : Progress) : (begun settings entry p).1.length ≤ 1 := by
  rcases begun_cases settings entry p with ⟨heq, -⟩ | ⟨kind, q, -, -, heq⟩ <;> simp [heq]

/-- A run of an empty stack does nothing. -/
theorem run_nil (sources : Sources σ) (steps : Nat) (p : Progress) (state : σ) :
    run settings sources steps [] p state = pure ([], p, state) := by
  cases steps <;> rfl

/-- A walk is a run from what it begins with. -/
theorem walk_value (sources : Sources σ) (steps : Nat) (entry : Path) (p : Progress) (state : σ) :
    (walk settings sources steps entry p state).value
      = (run settings sources steps (begun settings entry p).1 (begun settings entry p).2
          state).value.2 := by
  unfold walk begun
  cases classify settings entry with
  | none =>
      rw [run_nil]
      rfl
  | some kind =>
      cases p.claim? entry with
      | none =>
          simp only
          rw [run_nil]
          rfl
      | some q => rfl

end Walk

end ImportClosure
