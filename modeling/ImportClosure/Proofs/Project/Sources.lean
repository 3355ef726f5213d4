import ImportClosure.Proofs.Analyzer.Reachable
import ImportClosure.Proofs.Locator
import ImportClosure.Proofs.Walk.Settled
import ImportClosure.Walk.Project

/-!
# `ImportClosure.Proofs.Project.Sources`: what a project answers to a walk

`documentFiles` and `moduleFiles` are the answers about the files of a project as functions of
the file tree. `sources_answers` says that a faithful locator and a faithful analyzer give these
answers whatever was asked before.

A walker of the project (`Walker.Of`) has such a locator and such an analyzer. All files that come
onto the stack of its walks are listed places or possible answers of the analyzer
(`bounded_metPaths`), so that the steps of a walk are enough (`walk_finishes`). `walk_preserves` is
how the theorems about whole walks are proved: what holds of the stack and the progress that a walk
begins with, and is kept by every visit, holds at its end, with an empty stack. `new_walk_preserves`
is the case of a new walker.
-/

set_option autoImplicit false

namespace ImportClosure.Walker

variable (tree : FileTree) (settings : Settings) (grammars : Grammars)
  (root : Path)

/-- The files that the document at a path imports. -/
def documentFiles (path : Path) : Except Trouble (List Path) :=
  (documentText tree path).map fun text =>
    (Document.references text path).value.flatMap fun reference =>
      Locator.located tree settings root (target tree root path reference.specifier)

/-- The files that the module at a path depends on. -/
def moduleFiles (path : Path) : Except Analyzer.Failure (List Path) :=
  ((Analyzer.new root settings grammars).reachable tree path).value.1

/-- The locator and the analyzer of a walk keep only what they would find anew. -/
def Faithful (state : Locator × Analyzer) : Prop :=
  Locator.Faithful tree settings root state.1 ∧
    Analyzer.Faithful tree settings grammars root state.2

/-- A new walker keeps nothing. -/
theorem faithful_new :
    Faithful tree settings grammars root
      (Locator.new root settings, Analyzer.new root settings grammars) :=
  ⟨Locator.faithful_new tree settings root, Analyzer.faithful_new tree settings grammars root⟩

variable {tree settings grammars root} {locator : Locator}

/-- A faithful locator locates one target after the other. -/
theorem locateAll_value (h : Locator.Faithful tree settings root locator) (targets : List Path) :
    (locateAll tree targets locator).value.1
        = targets.flatMap (Locator.located tree settings root) ∧
      Locator.Faithful tree settings root (locateAll tree targets locator).value.2 := by
  induction targets generalizing locator with
  | nil => exact ⟨rfl, h⟩
  | cons target targets ih =>
      -- The first target leaves a faithful locator for the others.
      obtain ⟨hvalue, hafter⟩ := Locator.locate_value h target
      obtain ⟨hmore, hend⟩ := ih hafter
      rw [locateAll, Traced.value_bind, List.flatMap_cons, ← hvalue, ← hmore]
      exact ⟨rfl, hend⟩

/-- A faithful locator locates the files that a document imports. -/
theorem documentImports_value (h : Locator.Faithful tree settings root locator) (path : Path) :
    (documentImports tree root path locator).value.1 = documentFiles tree settings root path ∧
      Locator.Faithful tree settings root (documentImports tree root path locator).value.2 := by
  unfold documentImports documentFiles
  cases documentText tree path with
  | error trouble => exact ⟨rfl, h⟩
  | ok text =>
      obtain ⟨hvalue, hafter⟩ := locateAll_value h ((Document.references text path).value.map
        fun reference => target tree root path reference.specifier)
      refine ⟨congrArg Except.ok (hvalue.trans ?_), hafter⟩
      rw [List.flatMap_map]

variable (tree settings grammars root) in
/-- The answers of a project do not depend on what was asked before. -/
theorem sources_answers :
    (sources tree root).Answers (Faithful tree settings grammars root)
      (documentFiles tree settings root) (moduleFiles tree settings grammars root) where
  document_eq path _ h := (documentImports_value h.1 path).1
  good_document path _ h := ⟨(documentImports_value h.1 path).2, h.2⟩
  module_eq path _ h :=
    Analyzer.reachable_value_eq h.2 (Analyzer.faithful_new tree settings grammars root) path
  good_module path _ h := ⟨h.1, (Analyzer.reachable_value h.2 path).2⟩

/-! ### The answers -/

/-- A document imports what the targets of its references are located at. -/
theorem mem_documentFiles {path file : Path} {text : Text} {files : List Path}
    (htext : documentText tree path = .ok text)
    (hfiles : documentFiles tree settings root path = .ok files) :
    file ∈ files ↔ ∃ reference ∈ (Document.references text path).value,
      file ∈ Locator.located tree settings root
        (target tree root path reference.specifier) := by
  rw [documentFiles, htext] at hfiles
  obtain rfl := Except.ok.inj hfiles
  exact List.mem_flatMap

/-- A document has imports if it can be read. -/
theorem exists_documentText {path : Path} {files : List Path}
    (h : documentFiles tree settings root path = .ok files) :
    ∃ text, documentText tree path = .ok text := by
  unfold documentFiles at h
  cases htext : documentText tree path with
  | error trouble =>
      rw [htext] at h
      contradiction
  | ok text => exact ⟨text, rfl⟩

/-- What a document imports stands at a listed place. -/
theorem exists_place_of_documentFiles {path file : Path} {files : List Path}
    (h : documentFiles tree settings root path = .ok files) (hfile : file ∈ files) :
    ∃ place ∈ Locator.places tree settings root, Locator.filePath root place = file := by
  obtain ⟨text, htext⟩ := exists_documentText h
  obtain ⟨reference, -, hlocated⟩ := (mem_documentFiles htext h).mp hfile
  exact Locator.exists_place_of_mem_located hlocated

/-- What a module depends on can be reached from it by an emptied search. -/
theorem searches_of_moduleFiles {path : Path} {found : List Path}
    (h : moduleFiles tree settings grammars root path = .ok found) :
    ∃ files, Analyzer.moduleImports tree settings grammars root (Path.toSlashes path) = .ok files ∧
      Analyzer.Searches tree settings grammars root (Path.toSlashes path) files [] found := by
  have hvalue :=
    (Analyzer.reachable_value (Analyzer.faithful_new tree settings grammars root) path).1
  cases himports : Analyzer.moduleImports tree settings grammars root (Path.toSlashes path) with
  | error failure =>
      rw [himports] at hvalue
      rw [moduleFiles, hvalue] at h
      contradiction
  | ok files =>
      rw [himports] at hvalue
      obtain ⟨all, hall, hsearches⟩ := hvalue
      rw [moduleFiles, hall] at h
      exact ⟨files, rfl, Except.ok.inj h ▸ hsearches⟩

/-- What a module depends on is what some specifier names. -/
theorem exists_resolve_of_moduleFiles {path file : Path} {files : List Path}
    (h : moduleFiles tree settings grammars root path = .ok files) (hfile : file ∈ files) :
    ∃ specifier directory,
      Analyzer.resolve tree settings root specifier directory = some file := by
  obtain ⟨imports, himports, hsearches⟩ := searches_of_moduleFiles h
  obtain ⟨before, -, hstep⟩ :=
    Relation.TransGen.tail'_iff.mp (hsearches.reached file (Or.inl hfile))
  obtain ⟨-, more, hmore, hmem⟩ := Analyzer.exists_moduleImports_of_searchStep himports hstep
  obtain ⟨specifier, hresolve⟩ := Analyzer.exists_resolve_of_moduleImports hmore hmem
  exact ⟨specifier, _, hresolve⟩

/-- A module that depends on nothing for a failure cannot be analyzed. -/
theorem moduleImports_of_moduleFiles {path : Path} {failure : Analyzer.Failure}
    (h : moduleFiles tree settings grammars root path = .error failure) :
    Analyzer.moduleImports tree settings grammars root (Path.toSlashes path) = .error failure := by
  have hvalue :=
    (Analyzer.reachable_value (Analyzer.faithful_new tree settings grammars root) path).1
  cases himports : Analyzer.moduleImports tree settings grammars root (Path.toSlashes path) with
  | error cause =>
      rw [himports] at hvalue
      rw [moduleFiles, hvalue] at h
      rw [h]
  | ok files =>
      rw [himports] at hvalue
      obtain ⟨found, hfound, -⟩ := hvalue
      rw [moduleFiles, hfound] at h
      contradiction

/-! ### A walk has enough steps -/

variable (tree settings root) in
open Classical in
/-- The paths that a walk can meet beside the entry. -/
noncomputable def metPaths : Finset Path :=
  ((Locator.places tree settings root).map (Locator.filePath root)).toFinset ∪ Analyzer.answers

/-- All files that a visit takes in are among them. -/
theorem bounded_metPaths :
    Walk.Bounded settings (documentFiles tree settings root)
      (moduleFiles tree settings grammars root) (metPaths tree settings root) := by
  intro a file hfile
  rcases Walk.mem_taken_iff.mp hfile with ⟨-, files, hfiles, hmem, -⟩ | ⟨-, files, hfiles, hmem⟩
  · obtain ⟨place, hplace, rfl⟩ := exists_place_of_documentFiles hfiles hmem
    exact Finset.mem_union_left _ (List.mem_toFinset.mpr (List.mem_map_of_mem hplace))
  · obtain ⟨imports, -, hsearches⟩ := searches_of_moduleFiles hfiles
    exact Finset.mem_union_right _ (hsearches.answered file (Or.inl hmem))

/-- The steps of a walk are one for each of them and one for the entry. -/
theorem card_metPaths_lt (h : Locator.Faithful tree settings root locator) :
    (metPaths tree settings root).card < stepBound tree locator := by
  classical
  have hplaces : (((Locator.places tree settings root).map
      (Locator.filePath root)).toFinset).card ≤ (Locator.places tree settings root).length := by
    rw [← List.length_map (Locator.filePath root)]
    exact List.toFinset_card_le _
  have hanswers := Analyzer.card_answers_le
  have hunion := Finset.card_union_le
    ((Locator.places tree settings root).map (Locator.filePath root)).toFinset Analyzer.answers
  -- The index that is kept, if any, holds as many paths as are listed.
  have hbound : stepBound tree locator
      = FileTree.pathBound + (Locator.places tree settings root).length + 1 := by
    simp only [stepBound]
    cases hindex : locator.index with
    | none => simp only [h.root_eq, h.settings_eq, Locator.places]
    | some index => simp only [h.index index hindex, Index.length_ofPlaces]
  rw [hbound, metPaths]
  generalize FileTree.pathBound = bound at hanswers ⊢
  omega

/-! ### Walkers of a project -/

variable (tree settings grammars root) in
/-- The walker walks the project, and keeps only what it would find anew. -/
structure Of (walker : Walker) : Prop where
  root_eq : walker.root = root
  settings_eq : walker.settings = settings
  faithful : Faithful tree settings grammars root (walker.locator, walker.analyzer)

variable (tree settings grammars root) in
/-- A new walker keeps nothing. -/
theorem of_new : Of tree settings grammars root (new root settings grammars) where
  root_eq := rfl
  settings_eq := rfl
  faithful := faithful_new tree settings grammars root

variable {walker : Walker}

/-- A walk of a walker runs until its stack is empty. -/
theorem walk_finishes (h : Of tree settings grammars root walker) (entry : Path) :
    ∃ steps,
      (walker.walk tree entry).value.progress
          = (Walk.run settings (sources tree root) steps
              (Walk.begun settings entry walker.progress).1
              (Walk.begun settings entry walker.progress).2
              (walker.locator, walker.analyzer)).value.2.1 ∧
        ((walker.walk tree entry).value.locator, (walker.walk tree entry).value.analyzer)
          = (Walk.run settings (sources tree root) steps
              (Walk.begun settings entry walker.progress).1
              (Walk.begun settings entry walker.progress).2
              (walker.locator, walker.analyzer)).value.2.2 ∧
        (Walk.run settings (sources tree root) steps
          (Walk.begun settings entry walker.progress).1
          (Walk.begun settings entry walker.progress).2
          (walker.locator, walker.analyzer)).value.1 = [] := by
  have hanswers := sources_answers tree settings grammars root
  have hwalk := Walk.walk_value settings (sources tree root) (stepBound tree walker.locator) entry
    walker.progress (walker.locator, walker.analyzer)
  have hlt := card_metPaths_lt h.faithful.1
  have hbound : ∀ state, Faithful tree settings grammars root state →
      Walk.Bounded settings ((sources tree root).documentAt state)
        ((sources tree root).moduleAt state) (metPaths tree settings root) := by
    intro state hgood
    rw [hanswers.documentAt_eq hgood, hanswers.moduleAt_eq hgood]
    exact bounded_metPaths
  have hvalue : (walker.walk tree entry).value
      = { walker with
          locator := (Walk.walk settings (sources tree root) (stepBound tree walker.locator) entry
            walker.progress (walker.locator, walker.analyzer)).value.2.1
          analyzer := (Walk.walk settings (sources tree root) (stepBound tree walker.locator) entry
            walker.progress (walker.locator, walker.analyzer)).value.2.2
          progress := (Walk.walk settings (sources tree root) (stepBound tree walker.locator) entry
            walker.progress (walker.locator, walker.analyzer)).value.1 } := by
    rw [walk, Traced.value_bind, h.root_eq, h.settings_eq]
    rfl
  -- Evaluating the number of steps would take forever: keep it a variable.
  generalize stepBound tree walker.locator = steps at hwalk hlt hvalue
  refine ⟨steps, ?_, ?_, ?_⟩
  · rw [hvalue, hwalk]
  · rw [hvalue, hwalk]
  · refine Walk.run_finishes settings hanswers.good_after hbound _ _ _ h.faithful ?_
    have hunmet := Walk.card_unmet_le (metPaths tree settings root)
      (Walk.begun settings entry walker.progress).2
    have hlength := Walk.length_begun_le settings entry walker.progress
    omega

/-- What holds of the stack and the progress that a walk begins with, and is kept by every visit,
holds when the stack is empty; and the walker is still one of the project. -/
theorem walk_preserves (h : Of tree settings grammars root walker)
    {motive : List Artifact → Progress → Prop}
    (step : ∀ a stack p, motive (a :: stack) p →
      motive ((Walk.next settings (documentFiles tree settings root)
          (moduleFiles tree settings grammars root) a p).1 ++ stack)
        (Walk.next settings (documentFiles tree settings root)
          (moduleFiles tree settings grammars root) a p).2)
    (entry : Path)
    (hbegun : motive (Walk.begun settings entry walker.progress).1
      (Walk.begun settings entry walker.progress).2) :
    motive [] (walker.walk tree entry).value.progress ∧
      Of tree settings grammars root (walker.walk tree entry).value := by
  obtain ⟨steps, hprogress, hstate, hstack⟩ := walk_finishes h entry
  obtain ⟨hend, hfaithful⟩ := Walk.run_preserves settings
    (sources_answers tree settings grammars root) step steps _ _ h.faithful hbegun
  rw [hstack, ← hprogress] at hend
  rw [← hstate] at hfaithful
  exact ⟨hend, h.root_eq, h.settings_eq, hfaithful⟩

/-- The progress of a walk that has claimed its entry. -/
def claimed (entry : Path) : Progress := ⟨[(entry, .inProgress)], []⟩

variable {entry : Path} {kind : Kind}

/-- What holds when the entry of a new walker is claimed, and is kept by every visit, holds
when its stack is empty. -/
theorem new_walk_preserves {motive : List Artifact → Progress → Prop}
    (step : ∀ a stack p, motive (a :: stack) p →
      motive ((Walk.next settings (documentFiles tree settings root)
          (moduleFiles tree settings grammars root) a p).1 ++ stack)
        (Walk.next settings (documentFiles tree settings root)
          (moduleFiles tree settings grammars root) a p).2)
    (hkind : classify settings entry = some kind) (h : motive [⟨entry, kind⟩] (claimed entry)) :
    motive [] ((new root settings grammars).walk tree entry).value.progress := by
  have hbegun : Walk.begun settings entry (new root settings grammars).progress
      = ([⟨entry, kind⟩], claimed entry) := by
    simp only [Walk.begun, hkind]
    rfl
  refine (walk_preserves (of_new tree settings grammars root) step entry ?_).1
  rw [hbegun]
  exact h

/-- What holds of the entry of a new walker, and of what is taken in from the files that it holds
of, holds of all that the walk meets. -/
theorem met_new_walk {P : Path → Prop}
    (htaken : ∀ a : Artifact, P a.path → ∀ file ∈ Walk.taken settings
      (documentFiles tree settings root) (moduleFiles tree settings grammars root) a, P file)
    (hkind : classify settings entry = some kind) (hentry : P entry) {path : Path}
    (h : ((new root settings grammars).walk tree entry).value.progress.Met path) : P path := by
  refine (new_walk_preserves (motive := fun stack p => (∀ a ∈ stack, P a.path) ∧
    ∀ x, p.Met x → P x) ?_ hkind ?_).2 path h
  · rintro a stack p ⟨hstack, hmet⟩
    have ha := hstack a (by simp)
    refine ⟨fun b hb => ?_, fun x hx => ?_⟩
    · rcases List.mem_append.mp hb with hb | hb
      · exact htaken a ha _ ((Walk.mem_next_iff settings a b p).mp hb).1
      · exact hstack b (List.mem_cons_of_mem a hb)
    · rcases (Walk.met_next_iff settings a p x).mp hx with hx | hx | ⟨rfl, -⟩
      · exact hmet x hx
      · exact htaken a ha x hx
      · exact ha
  · have hclaim := Progress.claim?_of_not_met (Progress.not_met_empty entry)
    refine ⟨by simpa using hentry, fun x hx => ?_⟩
    rcases (Progress.met_of_claim? hclaim x).mp hx with rfl | hx
    · exact hentry
    · exact absurd hx (Progress.not_met_empty x)

/-- A walk settles what it meets. -/
theorem settles_walk (hkind : classify settings entry = some kind) :
    Walk.Settles settings (documentFiles tree settings root)
      (moduleFiles tree settings grammars root) [entry] []
      ((new root settings grammars).walk tree entry).value.progress :=
  new_walk_preserves (fun a _ _ => Walk.settles_next a) hkind
    (Walk.settles_claim hkind (Progress.claim?_of_not_met (Progress.not_met_empty entry))
      Walk.settles_empty)

end ImportClosure.Walker
