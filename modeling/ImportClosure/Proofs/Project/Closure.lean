import ImportClosure.Proofs.Project.Sources
import ImportClosure.Proofs.Walk.Closure
import ImportClosure.Syntax.Grammar

/-!
# `ImportClosure.Proofs.Project.Closure`: a project's dependencies are a closure

`Imports` is the import graph of a project, read off the file tree with a new locator and a new
analyzer for every edge. `mem_dependencies_walk_iff` is the main result: the dependencies that a
new walker finds are the files that can be reached from the entry in this graph, without the
documents that cannot be read.

The analyzer puts the paths that it is asked about in the form of `Path.toSlashes`, and so the
result needs paths that have this form already. The files that a locator finds have it if the
root has, with one exception: the root `.`, under which a locator finds `./a` and an analyzer
`a`. `exists_not_mem_dependencies_of_here` is a project for which the result fails there.
-/

set_option autoImplicit false

namespace ImportClosure

open Relation (ReflTransGen)

variable (tree : FileTree) (settings : Settings) (grammars : Grammars)
  (root : Path)

/-- The import graph of a project. A document leads to the recognized files at which its
references are located, and a module to the files that it imports. Documents that cannot be read
and modules that cannot be analyzed lead nowhere. -/
inductive Imports : Path → Path → Prop where
  | document {path file : Path} {text : Text} {reference : Document.Reference}
      (hkind : classify settings path = some .document)
      (htext : Walker.documentText tree path = .ok text)
      (hreference : reference ∈ (Document.references text path).value)
      (hfile : file ∈ ((Locator.new root settings).locate tree
        (Path.relative tree.cwd
          (Path.normalize (Path.join (Path.directory path) reference.specifier)) root)).value.1)
      (hsome : (classify settings file).isSome) : Imports path file
  | module {path file : Path} {files : List Path}
      (hkind : classify settings path = some .module)
      (hfiles : ((Analyzer.new root settings grammars).directImports tree path).value.1 = .ok files)
      (hfile : file ∈ files) : Imports path file

namespace Walker

variable {tree settings grammars root} {path file : Path}

/-- A target is located where the way that it is written from is. -/
theorem located_target (tree : FileTree) (settings : Settings) (root path : Path)
    (specifier : Text) :
    Locator.located tree settings root (target tree root path specifier)
      = ((Locator.new root settings).locate tree (Path.relative tree.cwd
          (Path.normalize (Path.join (Path.directory path) specifier)) root)).value.1 := by
  rw [(Locator.locate_value (Locator.faithful_new tree settings root) _).1]
  -- `locate` writes slashes for backslashes once more, which changes nothing.
  have htwice : ∀ t : Text,
      Text.replace '\\' '/' (Text.replace '\\' '/' t) = Text.replace '\\' '/' t := by
    intro t
    exact Text.replace_of_not_mem (Text.not_mem_replace (by decide) t)
  rw [Locator.located, Locator.located, target, htwice]

/-- The edges of a document that can be read. -/
theorem imports_document_iff {files : List Path} (hkind : classify settings path = some .document)
    (hfiles : documentFiles tree settings root path = .ok files) :
    Imports tree settings grammars root path file
      ↔ file ∈ files ∧ (classify settings file).isSome := by
  obtain ⟨text, htext⟩ := exists_documentText hfiles
  rw [mem_documentFiles htext hfiles]
  constructor
  · intro h
    cases h with
    | @document other reference _ hother hreference hfile hsome =>
        obtain rfl : text = other := Except.ok.inj (htext.symm.trans hother)
        rw [← located_target] at hfile
        exact ⟨⟨reference, hreference, hfile⟩, hsome⟩
    | module hmodule hfiles hfile =>
        rw [hkind] at hmodule
        simp at hmodule
  · rintro ⟨⟨reference, hreference, hfile⟩, hsome⟩
    rw [located_target] at hfile
    exact .document hkind htext hreference hfile hsome

/-- The edges of a module. -/
theorem imports_module_iff (hkind : classify settings path = some .module) :
    Imports tree settings grammars root path file ↔
      ∃ files, Analyzer.moduleImports tree settings grammars root path = .ok files ∧
        file ∈ files := by
  have hvalue := (Analyzer.directImports_value
    (Analyzer.faithful_new tree settings grammars root) path).1
  constructor
  · intro h
    cases h with
    | document hdocument =>
        rw [hkind] at hdocument
        simp at hdocument
    | @module files hmodule hfiles hfile => exact ⟨files, hvalue.symm.trans hfiles, hfile⟩
  · rintro ⟨files, hfiles, hfile⟩
    exact .module hkind (hvalue.trans hfiles) hfile

/-- Only modules and documents that can be read lead anywhere. -/
theorem classify_of_imports (h : Imports tree settings grammars root path file) :
    classify settings path = some .module ∨
      (classify settings path = some .document ∧
        ∃ files, documentFiles tree settings root path = .ok files) := by
  cases h with
  | document hkind htext =>
      refine Or.inr ⟨hkind, ?_⟩
      rw [documentFiles, htext]
      exact ⟨_, rfl⟩
  | module hkind => exact Or.inl hkind

/-! ### The analyzer's search follows the graph -/

/-- A step of the analyzer's search from a module is an edge. -/
theorem imports_of_searchStep {start x y : Path} {files : List Path}
    (hstart : classify settings start = some .module)
    (hfiles : Analyzer.moduleImports tree settings grammars root start = .ok files)
    (h : Analyzer.SearchStep tree settings grammars root start files x y) :
    Imports tree settings grammars root x y := by
  obtain ⟨hcases, himports⟩ := Analyzer.exists_moduleImports_of_searchStep hfiles h
  have hkind : classify settings x = some .module := by
    rcases hcases with rfl | hkind
    · exact hstart
    · exact hkind
  exact (imports_module_iff hkind).mpr himports

/-- An edge of a file that is no document is a step of the analyzer's search. -/
theorem searchStep_of_imports {start x y : Path} {files : List Path}
    (hfiles : Analyzer.moduleImports tree settings grammars root start = .ok files)
    (hx : classify settings x ≠ some .document) (h : Imports tree settings grammars root x y) :
    Analyzer.SearchStep tree settings grammars root start files x y := by
  have hkind : classify settings x = some .module :=
    (classify_of_imports h).resolve_right fun hdoc => hx hdoc.1
  obtain ⟨more, hmore, hy⟩ := (imports_module_iff hkind).mp h
  unfold Analyzer.SearchStep
  split
  · rename_i heq
    subst heq
    rw [hfiles] at hmore
    exact Except.ok.inj hmore ▸ hy
  · exact Analyzer.mem_follows_iff.mpr ⟨hkind, more, hmore, hy⟩

/-! ### The form of the paths -/

/-- Under a root in the form of `Path.toSlashes`, other than `.`, the paths of listed places have
that form. -/
theorem toSlashes_filePath (hnames : tree.top.Named Path.IsName) (hback : tree.NoBackslash)
    (hroot : Path.toSlashes root = root) (hhere : root ≠ Path.here) {place : Place}
    (hplace : place ∈ Locator.places tree settings root) :
    Path.toSlashes (Locator.filePath root place) = Locator.filePath root place := by
  obtain ⟨hmem, hnormal⟩ := (Path.toSlashes_eq_self_iff root).mp hroot
  obtain ⟨slashes, segments, hparts, rfl, hne⟩ := Path.exists_ofParts hnormal hhere
  have hisName := Locator.named_of_mem_places hnames hplace
  have hclean := Locator.named_of_mem_places hback hplace
  have hnil := Locator.ne_nil_of_mem_places hplace
  have hpath := Locator.filePath_ofParts hparts hne hmem hisName hclean hnil
  refine (Path.toSlashes_eq_self_iff _).mpr ⟨Text.not_mem_replace (by decide) _, ?_⟩
  rw [hpath]
  refine (hparts.append hisName).normalize_ofParts fun hempty => hne ?_
  obtain ⟨hslashes, hsegments⟩ := List.append_eq_nil_iff.mp hempty
  have happend : segments ++ place = [] := by
    cases hcases : segments ++ place with
    | nil => rfl
    | cons first rest =>
        have hfirst := (hparts.append hisName).ne_nil first (by simp [hcases])
        cases rest <;> simp [hcases, Path.ofSegments, hfirst] at hsegments
  exact absurd (List.append_eq_nil_iff.mp happend).2 hnil

/-- In a tree without backslashes what modules depend on has the form. -/
theorem toSlashes_of_moduleFiles (hback : tree.NoBackslash) {files : List Path}
    (h : moduleFiles tree settings grammars root path = .ok files) (hfile : file ∈ files) :
    Path.toSlashes file = file := by
  obtain ⟨specifier, directory, hresolve⟩ := exists_resolve_of_moduleFiles h hfile
  obtain ⟨candidate, -, hisFile, rfl, -⟩ :=
    Analyzer.exists_candidate_of_resolve tree settings root hresolve
  have hclean := FileTree.not_mem_of_isFile hback hisFile
  refine (Path.toSlashes_eq_self_iff _).mpr ⟨Path.not_mem_toSlashes _, ?_⟩
  rw [Path.toSlashes_of_not_mem hclean, Path.normalize_idem]

/-! ### Walks -/

/-- The answers of a project are those of its import graph. -/
theorem depicts (hnames : tree.top.Named Path.IsName) (hback : tree.NoBackslash)
    (hroot : Path.toSlashes root = root) (hhere : root ≠ Path.here) :
    Walk.Depicts settings (documentFiles tree settings root)
      (moduleFiles tree settings grammars root) (Imports tree settings grammars root)
      fun path => Path.toSlashes path = path where
  reach a hfit hkind y hy := by
    rcases Walk.mem_taken_iff.mp hy with
      ⟨hdoc, files, hfiles, hmem, hsome⟩ | ⟨hmod, files, hfiles, hmem⟩
    · rw [hdoc] at hkind
      exact .single ((imports_document_iff hkind hfiles).mpr ⟨hmem, hsome⟩)
    · rw [hmod] at hkind
      -- The analyzer asks for the path in the form of `toSlashes`, which it has.
      obtain ⟨imports, himports, hsearches⟩ := searches_of_moduleFiles hfiles
      rw [hfit] at himports hsearches
      exact ReflTransGen.mono (fun _ _ => imports_of_searchStep hkind himports) a.path y
        (hsearches.reached y (Or.inl hmem)).to_reflTransGen
  closed a hfit hkind x hx y hedge := by
    obtain ⟨path, kind⟩ := a
    cases kind with
    | document =>
        have hpath : x = path := by simpa [Walk.DealsWith] using hx
        subst hpath
        rcases classify_of_imports hedge with hmodule | ⟨-, files, hfiles⟩
        · rw [hkind] at hmodule
          simp at hmodule
        · obtain ⟨hmem, hsome⟩ := (imports_document_iff hkind hfiles).mp hedge
          exact Or.inr (Walk.mem_taken_iff.mpr (Or.inl ⟨rfl, files, hfiles, hmem, hsome⟩))
    | module =>
        cases hfiles : moduleFiles tree settings grammars root path with
        -- A module that cannot be analyzed leads nowhere.
        | error failure =>
            have hpath : x = path := by simpa [Walk.DealsWith, Walk.taken, hfiles] using hx
            have hnone := moduleImports_of_moduleFiles hfiles
            subst hpath
            obtain ⟨imports, himports, -⟩ := (imports_module_iff hkind).mp hedge
            rw [hfit, himports] at hnone
            cases hnone
        | ok files =>
            have hdealt : x = path ∨ (x ∈ files ∧ classify settings x ≠ some .document) := by
              simpa [Walk.DealsWith, Walk.taken, hfiles] using hx
            -- So the search has followed it, and its queue is empty.
            have hother : classify settings x ≠ some .document := by
              rcases hdealt with rfl | hx
              · rw [hkind]
                simp
              · exact hx.2
            obtain ⟨imports, himports, hsearches⟩ := searches_of_moduleFiles hfiles
            rw [hfit] at himports hsearches
            simpa [Walk.taken, hfiles] using hsearches.closed x (hdealt.imp_right And.left) y
              (searchStep_of_imports himports hother hedge)
  fit a y hy := by
    rcases Walk.mem_taken_iff.mp hy with ⟨-, files, hfiles, hmem, -⟩ | ⟨-, files, hfiles, hmem⟩
    · obtain ⟨place, hplace, rfl⟩ := exists_place_of_documentFiles hfiles hmem
      exact toSlashes_filePath hnames hback hroot hhere hplace
    · exact toSlashes_of_moduleFiles hback hfiles hmem

variable (grammars) in
/-- A walk exhausts the import graph from its entry. -/
theorem exhausts_walk (hnames : tree.top.Named Path.IsName) (hback : tree.NoBackslash)
    (hroot : Path.toSlashes root = root) (hhere : root ≠ Path.here) {entry : Path}
    (hentry : Path.toSlashes entry = entry) (hsome : (classify settings entry).isSome) :
    Walk.Exhausts settings (documentFiles tree settings root)
      (moduleFiles tree settings grammars root) (Imports tree settings grammars root)
      (fun path => Path.toSlashes path = path) [entry] []
      ((new root settings grammars).walk tree entry).value.progress := by
  obtain ⟨kind, hkind⟩ := Option.isSome_iff_exists.mp hsome
  -- Claiming the entry begins the invariant, and every visit keeps it.
  refine new_walk_preserves
    (fun a stack p => Walk.exhausts_next (depicts hnames hback hroot hhere) a) hkind ?_
  exact Walk.exhausts_claim hkind hentry
    (Progress.claim?_of_not_met (Progress.not_met_empty entry)) Walk.exhausts_empty

/-- A document has no imports exactly if it cannot be read. -/
theorem unreadable_iff :
    Walk.Unreadable settings (documentFiles tree settings root) path
      ↔ classify settings path = some .document ∧
        ∃ trouble, documentText tree path = .error trouble := by
  unfold Walk.Unreadable documentFiles
  cases documentText tree path <;> simp [Except.map]

/-- A project with a document that imports a module, and the module, which imports itself. -/
def selfImport : FileTree where
  top := .folder 0 [("p".toList, .folder 0
    [("d.mdx".toList, .file (Text.encode "import \"./a\"\n".toList) 0),
      ("a.ts".toList, .file (Text.encode "import \"./a\"\n".toList) 0)])]
  cwd := "/p".toList

end Walker

end ImportClosure
