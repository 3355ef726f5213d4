import ImportClosure.Proofs.Project.Closure
import ImportClosure.Proofs.Project.Run

/-!
# `ImportClosure.Proofs.Project.Transfer`: dependencies that carry over to another project

Two projects with the same root can differ in their trees, their settings and their broken grammars.
`Carries` says of some paths, the kept ones, that what they import in the first project they import
in the second, and that it is kept. The dependencies of a kept entry in the first project are then
among those in the second (`Carries.mem_dependencies`), and they are the same if it holds both ways
(`Carries.dependencies_eq`).

`resolveImports_eq_of_accepts` is the same for whole runs: a run answers alike in two trees if the
same entries are accepted and the walks from them find the same.
-/

set_option autoImplicit false

namespace ImportClosure

open Relation (ReflTransGen)

/-- What kept paths import in the first project they import in the second, it is kept as well, and
kept documents that cannot be read in the second cannot be read in the first. -/
structure Carries (first second : FileTree) (settings settings' : Settings)
    (grammars grammars' : Grammars) (root : Path) (Kept : Path → Prop) : Prop where
  toSlashes_eq : ∀ path, Kept path → Path.toSlashes path = path
  imports : ∀ path file, Kept path → Imports first settings grammars root path file →
    Imports second settings' grammars' root path file ∧ Kept file
  unreadable : ∀ path, Kept path →
    Walk.Unreadable settings' (Walker.documentFiles second settings' root) path →
    Walk.Unreadable settings (Walker.documentFiles first settings root) path

variable {tree first second : FileTree} {settings settings' : Settings}
  {grammars grammars' : Grammars} {root entry path file : Path}
  {Kept : Path → Prop}

/-! ### Edges -/

/-- What a file imports stands at a listed place, or is what a specifier names in its directory. -/
theorem imports_cases (hedge : Imports tree settings grammars root path file) :
    (∃ found ∈ Locator.places tree settings root, file = Locator.filePath root found) ∨
      ∃ specifier, Analyzer.resolve tree settings root specifier (Path.directory path)
        = some file := by
  rcases Walker.classify_of_imports hedge with hmodule | ⟨hdocument, files, hfiles⟩
  · obtain ⟨files, hfiles, hfile⟩ := (Walker.imports_module_iff hmodule).mp hedge
    exact Or.inr (Analyzer.exists_resolve_of_moduleImports hfiles hfile)
  · obtain ⟨hmem, -⟩ := (Walker.imports_document_iff hdocument hfiles).mp hedge
    obtain ⟨found, hfound, heq⟩ := Walker.exists_place_of_documentFiles hfiles hmem
    exact Or.inl ⟨found, hfound, heq.symm⟩

/-- A file imports the same in another tree with the same listed places, if it is the same text and
names the same files there. -/
theorem imports_of_agree (hcwd : first.cwd = second.cwd)
    (hplaces : ∀ found, found ∈ Locator.places first settings root ↔
      found ∈ Locator.places second settings root)
    (htext : ∀ text, Walker.documentText first path = .ok text →
      Walker.documentText second path = .ok text)
    (hmodule : ∀ files, Analyzer.moduleImports first settings grammars root path = .ok files →
      Analyzer.moduleImports second settings grammars root path = .ok files)
    (hedge : Imports first settings grammars root path file) :
    Imports second settings grammars root path file := by
  rcases Walker.classify_of_imports hedge with hkind | ⟨hkind, files, hfiles⟩
  · obtain ⟨files, hfiles, hfile⟩ := (Walker.imports_module_iff hkind).mp hedge
    exact (Walker.imports_module_iff hkind).mpr ⟨files, hmodule files hfiles, hfile⟩
  · obtain ⟨hmem, hsome⟩ := (Walker.imports_document_iff hkind hfiles).mp hedge
    obtain ⟨text, hread⟩ := Walker.exists_documentText hfiles
    obtain ⟨reference, hreference, hlocated⟩ := (Walker.mem_documentFiles hread hfiles).mp hmem
    refine .document hkind (htext text hread) hreference ?_ hsome
    -- A target is located among the listed places, by its text.
    rw [Locator.mem_located, Walker.target, hcwd] at hlocated
    simp only [hplaces] at hlocated
    rw [← Walker.located_target, Locator.mem_located]
    exact hlocated

/-! ### Walks -/

/-- What is reached from a kept path is so in the second project, and is kept. -/
theorem Carries.reaches (h : Carries first second settings settings' grammars grammars' root Kept)
    (hentry : Kept entry)
    (hreach : ReflTransGen (Imports first settings grammars root) entry file) :
    ReflTransGen (Imports second settings' grammars' root) entry file ∧ Kept file := by
  induction hreach with
  | refl => exact ⟨.refl, hentry⟩
  | tail _ hedge ih =>
      obtain ⟨hreach, hkept⟩ := ih
      obtain ⟨hedge, hkept⟩ := h.imports _ _ hkept hedge
      exact ⟨hreach.tail hedge, hkept⟩

/-- What a walk from a kept entry finds in the first project it finds in the second. -/
theorem Carries.mem_dependencies
    (h : Carries first second settings settings' grammars grammars' root Kept)
    (hnames : first.top.Named Path.IsName) (hnames' : second.top.Named Path.IsName)
    (hback : first.NoBackslash) (hback' : second.NoBackslash)
    (hroot : Path.toSlashes root = root) (hhere : root ≠ Path.here) (hentry : Kept entry)
    (hsome : (classify settings entry).isSome) (hsome' : (classify settings' entry).isSome)
    (hfile : file
      ∈ ((Walker.new root settings grammars).walk first entry).value.progress.dependencies) :
    file ∈
      ((Walker.new root settings' grammars').walk second entry).value.progress.dependencies := by
  have hfirst := Walker.exhausts_walk grammars hnames hback hroot hhere
    (h.toSlashes_eq entry hentry) hsome
  have hsecond := Walker.exhausts_walk grammars' hnames' hback' hroot hhere
    (h.toSlashes_eq entry hentry) hsome'
  rw [Walk.mem_dependencies_iff hfirst] at hfile
  rw [Walk.mem_dependencies_iff hsecond]
  obtain ⟨⟨start, hstart, hreach⟩, hreadable⟩ := hfile
  obtain rfl := List.mem_singleton.mp hstart
  obtain ⟨hreach', hkept⟩ := h.reaches hentry hreach
  exact ⟨⟨start, hstart, hreach'⟩,
    fun hunreadable => hreadable (h.unreadable file hkept hunreadable)⟩

/-- If all carries over both ways, walks from a kept entry find the same. -/
theorem Carries.dependencies_eq
    (h : Carries first second settings settings' grammars grammars' root Kept)
    (h' : Carries second first settings' settings grammars' grammars root Kept)
    (hnames : first.top.Named Path.IsName) (hnames' : second.top.Named Path.IsName)
    (hback : first.NoBackslash) (hback' : second.NoBackslash)
    (hroot : Path.toSlashes root = root) (hhere : root ≠ Path.here) (hentry : Kept entry)
    (hsome : (classify settings entry).isSome) (hsome' : (classify settings' entry).isSome) :
    ((Walker.new root settings grammars).walk first entry).value.dependencies
      = ((Walker.new root settings' grammars').walk second entry).value.dependencies := by
  exact Text.sortedSet_eq_of_mem_iff fun _ =>
    ⟨h.mem_dependencies hnames hnames' hback hback' hroot hhere hentry hsome hsome',
      h'.mem_dependencies hnames' hnames hback' hback hroot hhere hentry hsome' hsome⟩

/-! ### Runs -/

/-- A run answers alike in two trees if the same entries are accepted in both and walks from them
find the same. A refusal shows only if an argument is blank, and then the tree is not asked. -/
theorem resolveImports_eq_of_accepts
    (haccepts : ∀ accepted, (Entry.resolve first settings root entry).value = .ok accepted ↔
      (Entry.resolve second settings root entry).value = .ok accepted)
    (hwalk : ∀ accepted, (Entry.resolve first settings root entry).value = .ok accepted →
      ((Walker.new accepted.root settings grammars).walk first accepted.entry).value.dependencies
        = ((Walker.new accepted.root settings grammars).walk second
            accepted.entry).value.dependencies) :
    (resolveImports first settings grammars root entry).value
      = (resolveImports second settings grammars root entry).value := by
  rw [resolveImports_value, resolveImports_value]
  cases hfirst : (Entry.resolve first settings root entry).value with
  | ok accepted =>
      rw [(haccepts accepted).mp hfirst]
      exact congrArg Except.ok (hwalk accepted hfirst)
  | error refusal =>
      by_cases hblank : Text.allBlank root = true ∨ Text.allBlank entry = true
      · rw [← Entry.resolve_congr_of_allBlank first second hblank, hfirst]
      simp only [not_or, Bool.not_eq_true] at hblank
      cases hsecond : (Entry.resolve second settings root entry).value with
      | ok accepted =>
          rw [(haccepts accepted).mpr hsecond] at hfirst
          contradiction
      | error other =>
          simp only [Entry.isMissingArgument_of_resolve hblank.1 hblank.2 hfirst,
            Entry.isMissingArgument_of_resolve hblank.1 hblank.2 hsecond, Bool.false_eq_true,
            if_false]

end ImportClosure
