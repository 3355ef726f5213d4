import ImportClosure.Proofs.Artifact
import ImportClosure.Proofs.Project.Reported

/-!
# `ImportClosure.Proofs.Project.Exclusion`: excluding more never reports more

Settings are `Narrower` than others if they name more vendor directories or more ignored ones, and
are the same otherwise. The entry, the listed places and the answers of the analyzer are each tested
by a condition that narrower settings only make stricter, and no test decides which file is looked
at next: a locator finds all that match, and the analyzer picks a candidate before it tests it. So
every edge of the import graph stays when directories are admitted again (`imports`), and by
`exists_resolveImports_of_narrower` a run answers with at least what it answered before.
-/

set_option autoImplicit false

namespace ImportClosure

open Relation (ReflTransGen)

/-- The first settings name at least the vendor directories and the ignored directories that the
second name, and are the same otherwise. -/
structure Narrower (narrow wide : Settings) : Prop where
  vendorDirs : wide.vendorDirs ⊆ narrow.vendorDirs
  ignoredDirs : wide.ignoredDirs ⊆ narrow.ignoredDirs
  same : narrow = { wide with
    vendorDirs := narrow.vendorDirs
    ignoredDirs := narrow.ignoredDirs }

variable {tree : FileTree} {narrow wide : Settings} {grammars : Grammars}
  {root entry path file : Path} {paths : List Path}

namespace Narrower

/-- Both recognize the same extensions. -/
theorem sourceExtensions_eq (h : Narrower narrow wide) :
    narrow.sourceExtensions = wide.sourceExtensions := by
  rw [h.same]
  rfl

/-- Both recognize the same files. -/
theorem classify_eq (h : Narrower narrow wide) : classify narrow = classify wide := by
  funext path
  rw [h.same]
  rfl

/-- What crosses no vendor directory of the narrower settings crosses none of the others. -/
theorem isVendored (h : Narrower narrow wide) (hpath : isVendored narrow path = false) :
    ImportClosure.isVendored wide path = false :=
  isVendored_of_subset h.vendorDirs hpath

/-- A folder that searches enter under the narrower settings they enter under the others. -/
theorem skips (h : Narrower narrow wide) {name : Text}
    (hname : Locator.skips narrow name = false) : Locator.skips wide name = false := by
  simp only [Locator.skips, Bool.or_eq_false_iff, decide_eq_false_iff_not] at hname ⊢
  exact ⟨fun hvendor => hname.1 (h.vendorDirs hvendor),
    fun hignored => hname.2 (h.ignoredDirs hignored)⟩

/-- A listed place is listed under the wider settings. -/
theorem mem_places (h : Narrower narrow wide) {place : Place}
    (hplace : place ∈ Locator.places tree narrow root) :
    place ∈ Locator.places tree wide root := by
  obtain ⟨start, modified, entries, hfind, hlists⟩ := FileTree.mem_listing_iff.mp hplace
  exact FileTree.mem_listing_iff.mpr ⟨start, modified, entries, hfind, hlists.mono fun _ => h.skips⟩

/-- A target that is not barred is not barred under the wider settings. -/
theorem isBarred (h : Narrower narrow wide) (hpath : Locator.isBarred narrow path = false) :
    Locator.isBarred wide path = false := by
  simp only [Locator.isBarred, Bool.or_eq_false_iff] at hpath ⊢
  exact ⟨hpath.1, h.isVendored hpath.2⟩

/-- A located file is located under the wider settings. -/
theorem mem_located (h : Narrower narrow wide) {target : Path}
    (hfile : file ∈ Locator.located tree narrow root target) :
    file ∈ Locator.located tree wide root target := by
  obtain ⟨hfree, candidate, hcandidate, place, hplace, hmatch⟩ := Locator.mem_located.mp hfile
  refine Locator.mem_located.mpr
    ⟨h.isBarred hfree, candidate, ?_, place, h.mem_places hplace, hmatch⟩
  rwa [Locator.candidates, ← h.sourceExtensions_eq]

/-- What lies inside lies inside under the wider settings. -/
theorem isInside (h : Narrower narrow wide)
    (hpath : Analyzer.isInside tree narrow root path = true) :
    Analyzer.isInside tree wide root path = true := by
  simp only [Analyzer.isInside, Bool.not_or, Bool.and_eq_true, Bool.not_eq_true'] at hpath ⊢
  exact ⟨hpath.1, h.isVendored hpath.2⟩

/-- What a specifier names it names under the wider settings: the candidates are the same, and the
first one that is a file is taken before it is tested. -/
theorem resolve (h : Narrower narrow wide) {specifier : Text} {directory : Path}
    (hresolve : Analyzer.resolve tree narrow root specifier directory = some file) :
    Analyzer.resolve tree wide root specifier directory = some file := by
  unfold Analyzer.resolve at hresolve ⊢
  split at hresolve
  · rename_i hrelative
    obtain ⟨hfound, hinside⟩ := Option.filter_eq_some_iff.mp hresolve
    rw [if_pos hrelative]
    refine Option.filter_eq_some_iff.mpr ⟨?_, h.isInside hinside⟩
    rwa [Analyzer.candidates, ← h.sourceExtensions_eq]
  · contradiction

/-- What a module imports it imports under the wider settings. -/
theorem moduleImports (h : Narrower narrow wide) {files : List Path}
    (hfiles : Analyzer.moduleImports tree narrow grammars root path = .ok files) :
    ∃ more, Analyzer.moduleImports tree wide grammars root path = .ok more ∧
      ∀ file ∈ files, file ∈ more := by
  have hspecifiers : Analyzer.moduleSpecifiers tree narrow grammars path
      = Analyzer.moduleSpecifiers tree wide grammars path := by
    rw [h.same]
    rfl
  unfold Analyzer.moduleImports at hfiles ⊢
  rw [hspecifiers] at hfiles
  cases hread : Analyzer.moduleSpecifiers tree wide grammars path with
  | error failure => simp [hread, Except.map] at hfiles
  | ok specifiers =>
      rw [hread, Except.map, Except.ok.injEq] at hfiles
      refine ⟨_, rfl, fun file hfile => ?_⟩
      rw [← hfiles, Text.mem_distinct, List.mem_filterMap] at hfile
      obtain ⟨specifier, hspecifier, hresolve⟩ := hfile
      rw [Text.mem_distinct, List.mem_filterMap]
      exact ⟨specifier, hspecifier, h.resolve hresolve⟩

/-- What a file imports it imports under the wider settings. -/
theorem imports (h : Narrower narrow wide)
    (hedge : Imports tree narrow grammars root path file) :
    Imports tree wide grammars root path file := by
  cases hedge with
  | document hkind htext hreference hfile hsome =>
      rw [h.classify_eq] at hkind hsome
      refine .document hkind htext hreference ?_ hsome
      rw [← Walker.located_target] at hfile ⊢
      exact h.mem_located hfile
  | module hkind hfiles hfile =>
      rw [h.classify_eq] at hkind
      rw [(Analyzer.directImports_value
        (Analyzer.faithful_new tree narrow grammars root) path).1] at hfiles
      obtain ⟨more, hmore, hsubset⟩ := h.moduleImports hfiles
      exact (Walker.imports_module_iff hkind).mpr ⟨more, hmore, hsubset _ hfile⟩

/-- An entry that is accepted is accepted under the wider settings. -/
theorem accepts (h : Narrower narrow wide) {accepted : Entry.Accepted}
    (haccepts : (Entry.resolve tree narrow root entry).value = .ok accepted) :
    (Entry.resolve tree wide root entry).value = .ok accepted := by
  obtain ⟨hroot, hentry, heq, hfile, hstays, hvendored, hsome⟩ :=
    Entry.resolve_eq_ok_iff.mp haccepts
  rw [h.classify_eq] at hsome
  exact Entry.resolve_eq_ok_iff.mpr
    ⟨hroot, hentry, heq, hfile, hstays, h.isVendored hvendored, hsome⟩

end Narrower

/-- Under narrower settings a run answers with no path that it does not answer with under the
wider. -/
theorem exists_resolveImports_of_narrower (hwf : tree.WellFormed) (hback : tree.NoBackslash)
    (hroot : '\\' ∉ root) (hentry : '\\' ∉ entry) (hnarrow : Narrower narrow wide)
    (hpaths : (resolveImports tree narrow grammars root entry).value = .ok paths) :
    ∃ more, (resolveImports tree wide grammars root entry).value = .ok more ∧
      ∀ file ∈ paths, file ∈ more := by
  obtain ⟨more, hmore⟩ :=
    exists_resolveImports_iff.mpr (exists_resolveImports_iff.mp ⟨paths, hpaths⟩)
  refine ⟨more, hmore, fun file hfile => ?_⟩
  obtain ⟨⟨accepted, haccepts⟩, hreach, hreadable⟩ :=
    (mem_resolveImports_iff hwf hback hroot hentry hpaths).mp hfile
  refine (mem_resolveImports_iff hwf hback hroot hentry hmore).mpr
    ⟨⟨accepted, hnarrow.accepts haccepts⟩, ?_, ?_⟩
  · exact ReflTransGen.mono (fun _ _ hedge => hnarrow.imports hedge) _ _ hreach
  -- Whether a document can be read does not depend on the settings.
  · rwa [Walker.unreadable_iff, ← hnarrow.classify_eq, ← Walker.unreadable_iff]

/-- A project with a document, a module that it imports, and a module in a folder that both import.
-/
def withLibrary : FileTree where
  top := .folder 0 [("p".toList, .folder 0
    [("d.mdx".toList, .file (Text.encode "import \"./a\"\nimport \"./lib/c\"\n".toList) 0),
      ("a.ts".toList, .file (Text.encode "import \"./lib/c\"\n".toList) 0),
      ("lib".toList, .folder 0 [("c.ts".toList, .file [] 0)])])]
  cwd := "/p".toList

/-- Settings that name the folder as a vendor directory. -/
def withoutLibrary : Settings := { vendorDirs := ["node_modules".toList, "lib".toList] }

/-- Without the folder the run answers with the two other files, and so it does with the folder. -/
theorem exists_resolveImports_withLibrary :
    Narrower withoutLibrary {} ∧
      (resolveImports withLibrary withoutLibrary (.builtIn []) "/p".toList "d.mdx".toList).value
        = .ok ["/p/a.ts".toList, "/p/d.mdx".toList] ∧
      ∃ more,
        (resolveImports withLibrary {} (.builtIn []) "/p".toList "d.mdx".toList).value = .ok more ∧
        ∀ file ∈ ["/p/a.ts".toList, "/p/d.mdx".toList], file ∈ more := by
  have hwf : withLibrary.WellFormed :=
    ⟨by decide +kernel, by decide +kernel, ["p".toList], _, _, by decide +kernel, rfl⟩
  have hnarrow : Narrower withoutLibrary {} := ⟨by decide, by decide, rfl⟩
  have hrun :
      (resolveImports withLibrary withoutLibrary (.builtIn []) "/p".toList "d.mdx".toList).value
      = .ok ["/p/a.ts".toList, "/p/d.mdx".toList] := by decide +kernel
  exact ⟨hnarrow, hrun, exists_resolveImports_of_narrower hwf (by decide +kernel) (by decide)
    (by decide) hnarrow hrun⟩

end ImportClosure
