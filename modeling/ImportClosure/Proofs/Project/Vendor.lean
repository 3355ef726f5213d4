import ImportClosure.Proofs.Analyzer.Hiding
import ImportClosure.Proofs.Project.Outside

/-!
# `ImportClosure.Proofs.Project.Vendor`: what files in vendor directories change

A run reads its own files only (`Own`): those whose way from the root crosses no vendor directory.
In two trees that are the same beside the vendor directories its own files import the same, up to
the hiding paths that the analyzer asks for, and what they import is its own as well
(`carries_own`). `resolveImports_congr_vendor` is the main result: if the trees also agree on which
hiding paths are files, a run answers the same in both. By `Analyzer.agreeHiding_of_no_slash` they
do where no extension holds a slash and `..` is no vendor directory.

In general the condition is needed: `exists_resolveImports_ne_vendor` has two projects in which a
file in a vendor directory hides one of the project's own.
-/

set_option autoImplicit false

namespace ImportClosure

open FileTree (Regular SameBesideVendor Clear)
open ImportClosure.Path (Plain)

variable {tree first second : FileTree} {settings : Settings}
  {grammars : Grammars} {root entry path file : Path} {place : Place}

/-- An absolute path without backslashes that is clear. -/
structure Own (tree : FileTree) (settings : Settings) (root path : Path) : Prop where
  isAbsolute : Path.isAbsolute path = true
  no_back : '\\' ∉ path
  clear : Clear tree settings root path

/-- A path of the run's own is in the form of `Path.toSlashes`. -/
theorem Own.toSlashes_eq (h : Own tree settings root path) : Path.toSlashes path = path := by
  rw [Path.toSlashes_of_not_mem h.no_back, h.clear.normal]

/-- Whose own a path is depends on the working directory only. -/
theorem own_congr (hcwd : first.cwd = second.cwd) :
    Own first settings root path ↔ Own second settings root path := by
  constructor
  · rintro ⟨habs, hback, hclear⟩
    exact ⟨habs, hback, (FileTree.clear_congr hcwd).mp hclear⟩
  · rintro ⟨habs, hback, hclear⟩
    exact ⟨habs, hback, (FileTree.clear_congr hcwd).mpr hclear⟩

/-- The files of listed places are the run's own. -/
theorem own_filePath (h : tree.Regular) (hroot : Plain place root) (hback : '\\' ∉ root)
    {found : Place} (hfound : found ∈ Locator.places tree settings root) :
    Own tree settings root (Locator.filePath root found) := by
  have hplain := Locator.plain_filePath hroot hback (Locator.named_of_mem_places h.wf.names hfound)
    (Locator.named_of_mem_places h.back hfound) (Locator.ne_nil_of_mem_places hfound)
  exact ⟨hplain.isAbsolute, Text.not_mem_replace (by decide) _, hplain.normalize,
    FileTree.not_vendored_of_mem_places h hroot hfound hplain⟩

/-- What a specifier names in an absolute directory is the run's own. -/
theorem own_of_resolve (h : tree.Regular) {directory : Path}
    (hdirectory : Path.isAbsolute directory = true) {specifier : Text}
    (hresolve : Analyzer.resolve tree settings root specifier directory = some file) :
    Own tree settings root file := by
  obtain ⟨candidate, hmem, hisFile, rfl, hinside⟩ :=
    Analyzer.exists_candidate_of_resolve tree settings root hresolve
  have hbase : Plain (Path.segments (Analyzer.specifiedPath specifier directory))
      (Analyzer.specifiedPath specifier directory) :=
    Path.plain_normalize (Path.isAbsolute_join hdirectory _)
  have habs := Analyzer.isAbsolute_of_mem_candidates hbase hmem
  have hclean := Path.not_mem_toSlashes candidate
  have hvendored := ((Analyzer.isInside_iff (h.wf.not_mem_cwd h.back) hclean).mp hinside).2
  rw [Path.toSlashes_of_not_mem (FileTree.not_mem_of_isFile h.back hisFile)] at hclean hvendored ⊢
  exact ⟨Path.isAbsolute_normalize habs, hclean, Path.normalize_idem _, hvendored⟩

/-- What the run's own files import carries over to the other tree. -/
theorem carries_own (h : SameBesideVendor settings root first second) (hroot : Plain place root)
    (hback : '\\' ∉ root) (hsame : Analyzer.AgreeHiding settings root first second) :
    Carries first second settings settings grammars grammars root (Own first settings root) where
  toSlashes_eq _ hpath := hpath.toSlashes_eq
  imports path file hpath hedge := by
    constructor
    · refine imports_of_agree h.cwd_eq (h.mem_places_iff hroot) (fun text htext => ?_)
        (fun files hfiles => ?_) hedge
      · exact Walker.documentText_of_read
          (fun content => (h.read_eq_ok_iff hpath.isAbsolute hpath.clear content).mp) htext
      · exact Analyzer.moduleImports_of_hiding h hsame hpath.isAbsolute hpath.clear hfiles
    · rcases imports_cases hedge with ⟨found, hfound, rfl⟩ | ⟨specifier, hresolve⟩
      · exact own_filePath h.left hroot hback hfound
      · exact own_of_resolve h.left (Path.isAbsolute_directory hpath.isAbsolute) hresolve
  unreadable path hpath hunreadable := by
    rw [Walker.unreadable_iff] at hunreadable ⊢
    obtain ⟨hkind, trouble, htrouble⟩ := hunreadable
    refine ⟨hkind, ?_⟩
    -- A document that can be read in the first tree can be read in the second.
    cases hfirst : Walker.documentText first path with
    | error other => exact ⟨other, rfl⟩
    | ok text =>
        have hsecond := Walker.documentText_of_read
          (fun content => (h.read_eq_ok_iff hpath.isAbsolute hpath.clear content).mp) hfirst
        rw [htrouble] at hsecond
        contradiction

/-- From an entry of the run's own walks find the same in both trees. -/
theorem dependencies_congr_of_own (h : SameBesideVendor settings root first second)
    (hroot : Plain place root) (hback : '\\' ∉ root)
    (hsame : Analyzer.AgreeHiding settings root first second)
    (hentry : Own first settings root entry) (hsome : (classify settings entry).isSome) :
    ((Walker.new root settings grammars).walk first entry).value.dependencies
      = ((Walker.new root settings grammars).walk second entry).value.dependencies := by
  have hspelled : Path.toSlashes root = root := by
    rw [Path.toSlashes_of_not_mem hback, hroot.normalize]
  have hhere : root ≠ Path.here := by
    rintro rfl
    exact absurd hroot.isAbsolute (by decide)
  have hown : Own second settings root = Own first settings root :=
    funext fun path => propext (own_congr h.cwd_eq.symm)
  have hother : Carries second first settings settings grammars grammars root
      (Own second settings root) := carries_own h.symm hroot hback (hsame.symm h.cwd_eq)
  rw [hown] at hother
  exact (carries_own h hroot hback hsame).dependencies_eq hother h.left.wf.names h.right.wf.names
    h.left.back h.right.back hspelled hhere hentry hsome hsome

/-! ### Runs -/

namespace Entry

/-- An accepted entry is the run's own. -/
theorem own_entryOf (h : tree.Regular) (hroot : '\\' ∉ root) (hentry : '\\' ∉ entry)
    {accepted : Accepted} (hresolve : (resolve tree settings root entry).value = .ok accepted) :
    Own tree settings (rootOf tree root) (entryOf tree root entry) := by
  have hcwd := h.wf.not_mem_cwd h.back
  have habs : Path.isAbsolute (rootOf tree root) = true := by
    rw [rootOf_eq hcwd hroot]
    exact Path.isAbsolute_absolute h.wf.isAbsolute_cwd root
  obtain ⟨-, -, -, -, -, hvendored, -⟩ := resolve_eq_ok_iff.mp hresolve
  rw [wayTo_entryOf h.wf.isAbsolute_cwd] at hvendored
  refine ⟨?_, Path.not_mem_toSlashes _, ?_, hvendored⟩
  · rw [entryOf_eq hentry]
    exact Path.isAbsolute_normalize (Path.isAbsolute_join habs entry)
  · rw [entryOf_eq hentry, Path.normalize_idem]

/-- What is accepted in one tree is accepted in the other. -/
theorem accepts_of_sameBesideVendor
    (h : SameBesideVendor settings (rootOf first root) first second) (hroot : '\\' ∉ root)
    (hentry : '\\' ∉ entry) {accepted : Accepted}
    (hresolve : (resolve first settings root entry).value = .ok accepted) :
    (resolve second settings root entry).value = .ok accepted := by
  have hown := own_entryOf h.left hroot hentry hresolve
  exact accepts_of_isFile h.cwd_eq (h.isFile_eq hown.isAbsolute hown.clear) hresolve

end Entry

/-- In two regular trees that are the same beside the vendor directories, and on which hiding paths
are files, a run answers the same. -/
theorem resolveImports_congr_vendor (h : SameBesideVendor settings root first second)
    (hroot : '\\' ∉ root) (hentry : '\\' ∉ entry)
    (hsame : Analyzer.AgreeHiding settings root first second) :
    (resolveImports first settings grammars root entry).value
      = (resolveImports second settings grammars root entry).value := by
  have hcwd := h.left.wf.not_mem_cwd h.left.back
  have habs := h.left.wf.isAbsolute_cwd
  have hrootOf : Entry.rootOf first root = Path.absolute first.cwd root :=
    Entry.rootOf_eq hcwd hroot
  have hrootOf' : Entry.rootOf second root = Path.absolute first.cwd root := by
    rw [h.cwd_eq, Entry.rootOf_eq (h.right.wf.not_mem_cwd h.right.back) hroot]
  -- What is asked of the root holds of what it is made absolute to.
  have htrees := h.absolute
  have hagree : Analyzer.AgreeHiding settings (Path.absolute first.cwd root) first second :=
    fun path hpath => hsame path ((Analyzer.hiding_absolute habs).mp hpath)
  refine resolveImports_eq_of_accepts (fun accepted => ⟨?_, ?_⟩) fun accepted haccepts => ?_
  · exact Entry.accepts_of_sameBesideVendor (by rwa [hrootOf]) hroot hentry
  · exact Entry.accepts_of_sameBesideVendor (by rw [hrootOf']; exact htrees.symm) hroot hentry
  · have hown := Entry.own_entryOf h.left hroot hentry haccepts
    obtain ⟨-, -, rfl, -, -, -, hsome⟩ := Entry.resolve_eq_ok_iff.mp haccepts
    rw [hrootOf] at hown
    simp only [hrootOf]
    exact dependencies_congr_of_own htrees (Path.plain_absolute habs root)
      (Path.not_mem_absolute hcwd hroot (by decide) (by decide)) hagree hown hsome

/-- A project with a module that imports a folder, and something in a vendor directory there. -/
def bundled (inside : List (Text × Node)) : FileTree where
  top := .folder 0 [("p".toList, .folder 0
    [("a.ts".toList, .file (Text.encode "import \"./b\"\n".toList) 0),
      ("b".toList, .folder 0
        [("index.ts".toList, .file [] 0), ("node_modules".toList, .folder 0 inside)])])]
  cwd := "/p".toList

/-- With a module in the vendor directory or without it, the project is the same beside it. -/
theorem sameBesideVendor_bundled :
    SameBesideVendor {} "/p".toList (bundled [("x.ts".toList, .file [] 0)]) (bundled []) := by
  refine FileTree.sameBesideVendor_of_filePlaces ?_ ?_ rfl (by decide +kernel)
  · exact ⟨⟨by decide +kernel, by decide +kernel, ["p".toList], _, _, by decide +kernel, rfl⟩,
      by decide +kernel, by decide +kernel⟩
  · exact ⟨⟨by decide +kernel, by decide +kernel, ["p".toList], _, _, by decide +kernel, rfl⟩,
      by decide +kernel, by decide +kernel⟩

/-- With it or without it, the run answers the same. -/
theorem resolveImports_bundled :
    SameBesideVendor {} "/p".toList (bundled [("x.ts".toList, .file [] 0)]) (bundled []) ∧
      (resolveImports (bundled [("x.ts".toList, .file [] 0)]) {} (.builtIn []) "/p".toList
          "a.ts".toList).value
        = (resolveImports (bundled []) {} (.builtIn []) "/p".toList "a.ts".toList).value :=
  ⟨sameBesideVendor_bundled, resolveImports_congr_vendor sameBesideVendor_bundled (by decide)
    (by decide) (Analyzer.agreeHiding_of_no_slash sameBesideVendor_bundled (by decide)
      (by decide))⟩

/-- With an extension that leads into the vendor directory, the module there hides the index file of
the folder. Where `..` is a vendor directory, a module beside the root hides that of the root. -/
theorem exists_resolveImports_ne_vendor :
    (∃ settings : Settings,
      SameBesideVendor settings "/p".toList (bundled [("x.ts".toList, .file [] 0)])
        (bundled []) ∧
      (resolveImports (bundled [("x.ts".toList, .file [] 0)]) settings (.builtIn []) "/p".toList
        "a.ts".toList).value = .ok ["/p/a.ts".toList] ∧
      (resolveImports (bundled []) settings (.builtIn []) "/p".toList "a.ts".toList).value
        = .ok ["/p/a.ts".toList, "/p/b/index.ts".toList]) ∧
    ∃ settings : Settings,
      SameBesideVendor settings "/p".toList (besides [("p.ts".toList, .file [] 0)])
        (besides []) ∧
      (resolveImports (besides [("p.ts".toList, .file [] 0)]) settings (.builtIn []) "/p".toList
        "a.ts".toList).value = .ok ["/p/a.ts".toList] ∧
      (resolveImports (besides []) settings (.builtIn []) "/p".toList "a.ts".toList).value
        = .ok ["/p/a.ts".toList, "/p/index.ts".toList] := by
  constructor
  · refine ⟨{ moduleExtensions := [".ts".toList, "/node_modules/x.ts".toList] }, ?_,
      by decide +kernel, by decide +kernel⟩
    exact ⟨sameBesideVendor_bundled.left, sameBesideVendor_bundled.right, rfl,
      sameBesideVendor_bundled.content_eq⟩
  · refine ⟨{ vendorDirs := [Path.parent] }, ?_, by decide +kernel, by decide +kernel⟩
    refine FileTree.sameBesideVendor_of_filePlaces ?_ ?_ rfl (by decide +kernel)
    · exact ⟨⟨by decide +kernel, by decide +kernel, ["p".toList], _, _, by decide +kernel, rfl⟩,
        by decide +kernel, by decide +kernel⟩
    · exact ⟨⟨by decide +kernel, by decide +kernel, ["p".toList], _, _, by decide +kernel, rfl⟩,
        by decide +kernel, by decide +kernel⟩

end ImportClosure
