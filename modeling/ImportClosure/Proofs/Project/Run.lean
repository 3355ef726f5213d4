import ImportClosure.Proofs.Entry
import ImportClosure.Proofs.Project.Sources

/-!
# `ImportClosure.Proofs.Project.Run`: what a whole run answers

`resolveImports` accepts an entry and walks from it. `resolveImports_value` is the answer without
the log, and `resolveImports_cases` what is known of a list of paths that it answers with: it is
empty, for the entry was refused, or it holds the dependencies of a walk that has settled them.

`mem_cases` says for such a walk where each path comes from: it is the entry, a readable document
or a module that stands at a listed place, or what the analyzer answers about a module.
-/

set_option autoImplicit false

namespace ImportClosure

variable {tree : FileTree} {settings : Settings} {grammars : Grammars}
  {root entry : Path} {paths : List Path}

/-- The answer of a run. -/
theorem resolveImports_value :
    (resolveImports tree settings grammars root entry).value
      = match (Entry.resolve tree settings root entry).value with
        | .error refusal => if refusal.isMissingArgument then .error refusal else .ok []
        | .ok accepted =>
          .ok ((Walker.new accepted.root settings grammars).walk tree
            accepted.entry).value.dependencies := by
  rw [resolveImports, Traced.value_bind]
  cases (Entry.resolve tree settings root entry).value with
  | error refusal => cases hmissing : refusal.isMissingArgument <;> simp [hmissing]
  | ok accepted => rfl

/-- What is known of a run's walk: the entry is accepted, and the paths are the dependencies of a
walk that has settled them. -/
structure Ran (tree : FileTree) (settings : Settings) (grammars : Grammars)
    (root entry : Path) (paths : List Path) (p : Progress) : Prop where
  accepted : (Entry.resolve tree settings root entry).value
    = .ok ⟨Entry.rootOf tree root, Entry.entryOf tree root entry⟩
  settles : Walk.Settles settings (Walker.documentFiles tree settings (Entry.rootOf tree root))
    (Walker.moduleFiles tree settings grammars (Entry.rootOf tree root))
    [Entry.entryOf tree root entry] [] p
  mem_iff : ∀ path, path ∈ paths ↔ path ∈ p.dependencies

/-- A run that answers with paths has refused the entry, and there are none, or has walked. -/
theorem resolveImports_cases
    (h : (resolveImports tree settings grammars root entry).value = .ok paths) :
    ((∀ accepted, (Entry.resolve tree settings root entry).value ≠ .ok accepted) ∧ paths = []) ∨
      ∃ p, Ran tree settings grammars root entry paths p := by
  rw [resolveImports_value] at h
  cases hresolve : (Entry.resolve tree settings root entry).value with
  | error refusal =>
      rw [hresolve] at h
      cases hmissing : refusal.isMissingArgument <;> simp [hmissing] at h
      exact Or.inl ⟨by simp, h⟩
  | ok accepted =>
      rw [hresolve] at h
      obtain ⟨-, -, rfl, -, -, -, hsome⟩ := Entry.resolve_eq_ok_iff.mp hresolve
      obtain ⟨kind, hkind⟩ := Option.isSome_iff_exists.mp hsome
      obtain rfl := Except.ok.inj h
      exact Or.inr ⟨_, hresolve, Walker.settles_walk hkind, fun path => Text.mem_sortedSet⟩

/-- A document that can be read is a file. -/
theorem Walker.isFile_of_documentText {path : Path} {text : Text}
    (h : Walker.documentText tree path = .ok text) : tree.isFile path = true := by
  unfold Walker.documentText at h
  cases hread : tree.read path with
  | error trouble => simp [hread, Except.map] at h
  | ok content => exact FileTree.isFile_iff_read.mpr ⟨content, hread⟩

/-- A document that reads the same has the same text. -/
theorem Walker.documentText_of_read {first second : FileTree} {path : Path}
    (hread : ∀ content, first.read path = .ok content → second.read path = .ok content)
    {text : Text} (h : Walker.documentText first path = .ok text) :
    Walker.documentText second path = .ok text := by
  unfold Walker.documentText at h ⊢
  cases hfirst : first.read path with
  | error trouble => simp [hfirst, Except.map] at h
  | ok content => rwa [hread content hfirst, ← hfirst]

/-- A file can be read as a document. -/
theorem Walker.exists_documentText_of_isFile {path : Path} (h : tree.isFile path = true) :
    ∃ text, Walker.documentText tree path = .ok text := by
  obtain ⟨content, hread⟩ := FileTree.isFile_iff_read.mp h
  rw [Walker.documentText, hread]
  exact ⟨_, rfl⟩

/-- What a module depends on is the form that `Path.toSlashes` gives to a file. -/
theorem Walker.exists_isFile_of_moduleFiles {path file : Path} {files : List Path}
    (h : Walker.moduleFiles tree settings grammars root path = .ok files) (hfile : file ∈ files) :
    ∃ candidate, tree.isFile candidate = true ∧ Path.toSlashes candidate = file ∧
      Analyzer.isInside tree settings root file = true := by
  obtain ⟨specifier, directory, hresolve⟩ := Walker.exists_resolve_of_moduleFiles h hfile
  obtain ⟨candidate, -, hisFile, heq, hinside⟩ :=
    Analyzer.exists_candidate_of_resolve tree settings root hresolve
  exact ⟨candidate, hisFile, heq.symm, hinside⟩

namespace Ran

variable {p : Progress}

/-- The entry is a file. -/
theorem isFile_entry (h : Ran tree settings grammars root entry paths p) :
    tree.isFile (Entry.entryOf tree root entry) = true :=
  (Entry.resolve_eq_ok_iff.mp h.accepted).2.2.2.1

/-- The entry is among the paths. -/
theorem entry_mem (h : Ran tree settings grammars root entry paths p) :
    Entry.entryOf tree root entry ∈ paths := by
  rw [h.mem_iff, Walk.mem_dependencies_iff_met h.settles]
  -- The entry was met first, and as a file it can be read.
  refine ⟨h.settles.entry_met _ (by simp), ?_⟩
  rintro ⟨-, trouble, htrouble⟩
  obtain ⟨text, htext⟩ := Walker.exists_documentText_of_isFile h.isFile_entry
  simp [Walker.documentFiles, htext, Except.map] at htrouble

/-- Every document among the paths is a file. -/
theorem isFile_document (h : Ran tree settings grammars root entry paths p) {path : Path}
    (hpath : path ∈ paths) (hkind : classify settings path = some .document) :
    tree.isFile path = true := by
  rw [h.mem_iff, Walk.mem_dependencies_iff_met h.settles] at hpath
  cases htext : Walker.documentText tree path with
  | ok text => exact Walker.isFile_of_documentText htext
  | error trouble =>
      refine absurd ⟨hkind, trouble, ?_⟩ hpath.2
      rw [Walker.documentFiles, htext]
      rfl

/-- Where a path comes from: it is the entry, or a recognized file that a document among the
paths imports, or an answer of the analyzer about a module among them. -/
theorem mem_cases (h : Ran tree settings grammars root entry paths p) {path : Path}
    (hpath : path ∈ paths) :
    path = Entry.entryOf tree root entry ∨
      (∃ d ∈ paths, classify settings d = some .document ∧ ∃ files,
        Walker.documentFiles tree settings (Entry.rootOf tree root) d = .ok files ∧
        path ∈ files ∧ (classify settings path).isSome) ∨
      (∃ m ∈ paths, classify settings m = some .module ∧ ∃ files,
        Walker.moduleFiles tree settings grammars (Entry.rootOf tree root) m = .ok files ∧
        path ∈ files) := by
  rw [h.mem_iff, Walk.mem_dependencies_iff_met h.settles] at hpath
  -- A path that was met is the entry or was taken in from a dependency, a document or a module.
  rcases h.settles.sourced path hpath.1 with hentry | ⟨a, ha, hkind, htaken⟩
  · exact Or.inl (List.mem_singleton.mp hentry)
  · rw [← h.mem_iff] at ha
    rcases Walk.mem_taken_iff.mp htaken with
      ⟨hdoc, files, hfiles, hmem, hsome⟩ | ⟨hmod, files, hfiles, hmem⟩
    · exact Or.inr (Or.inl ⟨a.path, ha, hdoc ▸ hkind, files, hfiles, hmem, hsome⟩)
    · exact Or.inr (Or.inr ⟨a.path, ha, hmod ▸ hkind, files, hfiles, hmem⟩)

/-- Where no name in the tree holds a NUL, no path does. -/
theorem nul_not_mem (h : Ran tree settings grammars root entry paths p)
    (hnames : tree.top.Named fun name => '\x00' ∉ name) : ∀ path ∈ paths, '\x00' ∉ path := by
  intro path hpath
  rcases h.mem_cases hpath with
    rfl | ⟨d, -, -, files, hfiles, hmem, -⟩ | ⟨m, -, -, files, hfiles, hmem⟩
  · exact FileTree.nul_not_mem_of_isFile h.isFile_entry
  · obtain ⟨place, hplace, rfl⟩ := Walker.exists_place_of_documentFiles hfiles hmem
    exact Locator.nul_not_mem_filePath hnames hplace
  · obtain ⟨candidate, hisFile, rfl, -⟩ := Walker.exists_isFile_of_moduleFiles hfiles hmem
    exact Path.not_mem_toSlashes_of_not_mem (FileTree.nul_not_mem_of_isFile hisFile) (by decide)
      (by decide)

/-- The imports of a document among the paths. -/
theorem exists_documentFiles (h : Ran tree settings grammars root entry paths p) {d : Path}
    (hd : d ∈ paths) (hkind : classify settings d = some .document) :
    ∃ files, Walker.documentFiles tree settings (Entry.rootOf tree root) d = .ok files := by
  obtain ⟨text, htext⟩ := Walker.exists_documentText_of_isFile (h.isFile_document hd hkind)
  rw [Walker.documentFiles, htext]
  exact ⟨_, rfl⟩

/-- The modules that a document among the paths imports are among them. -/
theorem mem_of_documentFiles (h : Ran tree settings grammars root entry paths p) {d m : Path}
    {files : List Path} (hd : d ∈ paths) (hkind : classify settings d = some .document)
    (hfiles : Walker.documentFiles tree settings (Entry.rootOf tree root) d = .ok files)
    (hm : m ∈ files) (hmod : classify settings m = some .module) : m ∈ paths := by
  rw [h.mem_iff] at hd ⊢
  refine (Walk.mem_dependencies_iff_met h.settles m).mpr ⟨?_, fun hu => ?_⟩
  · refine h.settles.imported d hd hkind m (Walk.mem_taken_iff.mpr (Or.inl ?_))
    exact ⟨rfl, files, hfiles, hm, by simp [hmod]⟩
  · rw [Walk.Unreadable, hmod] at hu
    simp at hu

end Ran

end ImportClosure
