import ImportClosure.Proofs.Artifact
import ImportClosure.Proofs.Project.Run
import ImportClosure.Syntax.Grammar

/-!
# `ImportClosure.Proofs.Project.Containment`: where the paths of a run lie

The ways from the root to the paths of a run are checked in three places: the entry when it is
accepted, the listed places by what the listing enters, and the answers of the analyzer one by
one. `contained_resolveImports` says what the checks come to in a tree as it is on a disk, without
backslashes: no way begins with `../` or crosses a vendor directory, and no way is `..` unless it
is that of the entry. The check of the entry lets `..` pass; `exists_parent_mem_resolveImports`
is a project in which it does.
-/

set_option autoImplicit false

namespace ImportClosure

variable {tree : FileTree} {settings : Settings} {grammars : Grammars}
  {root entry : Path} {paths : List Path}

namespace Entry

variable {path : Path}

/-- Where no backslash occurs, the root of a run consists of leading slashes and names. -/
theorem exists_rootOf_eq (hwf : tree.WellFormed) (hback : tree.NoBackslash) (hroot : '\\' ∉ root) :
    ∃ slashes names, Path.IsNormal slashes names ∧ slashes ≠ [] ∧
      rootOf tree root = Path.ofParts slashes names ∧ '\\' ∉ Path.ofParts slashes names := by
  have hcwd := hwf.not_mem_cwd hback
  have habs := hwf.isAbsolute_cwd
  have hrootOf := rootOf_eq hcwd hroot
  obtain ⟨slashes, names, hparts, hslashes, heq⟩ := Path.exists_ofParts_of_isAbsolute
    (Path.normalize_absolute tree.cwd root) (Path.isAbsolute_absolute habs root)
  refine ⟨slashes, names, hparts, hslashes, hrootOf.trans heq, ?_⟩
  rw [← heq, ← hrootOf]
  exact Path.not_mem_toSlashes _

/-- The way to a listed place is the place. -/
theorem relative_filePath (hwf : tree.WellFormed) (hback : tree.NoBackslash) (hroot : '\\' ∉ root)
    {place : Place} (hplace : place ∈ Locator.places tree settings (rootOf tree root)) :
    Path.relative tree.cwd (Locator.filePath (rootOf tree root) place) root
      = Path.wayOf [] place := by
  obtain ⟨slashes, names, hparts, hslashes, heq, hclean⟩ := exists_rootOf_eq hwf hback hroot
  have hisName := Locator.named_of_mem_places hwf.names hplace
  have hne : Path.ofParts slashes names ≠ [] := List.append_ne_nil_of_left_ne_nil hslashes _
  rw [← Path.relative_absolute hwf.isAbsolute_cwd, ← rootOf_eq (hwf.not_mem_cwd hback) hroot, heq,
    Locator.filePath_ofParts hparts hne hclean hisName (Locator.named_of_mem_places hback hplace)
      (Locator.ne_nil_of_mem_places hplace)]
  exact Path.relative_append hparts hslashes (hparts.append hisName) hslashes tree.cwd

/-- The way to a listed place does not leave the root and crosses no vendor directory. -/
theorem contained_filePath (hwf : tree.WellFormed) (hback : tree.NoBackslash) (hroot : '\\' ∉ root)
    {place : Place} (hplace : place ∈ Locator.places tree settings (rootOf tree root)) :
    Path.leaves (Path.relative tree.cwd (Locator.filePath (rootOf tree root) place) root) = false ∧
      ∀ folder ∈ (Text.splitOn '/' (Path.relative tree.cwd
          (Locator.filePath (rootOf tree root) place) root)).dropLast,
        folder ∉ settings.vendorDirs := by
  have hisName := Locator.named_of_mem_places hwf.names hplace
  have hclean := Locator.named_of_mem_places hback hplace
  rw [relative_filePath hwf hback hroot hplace]
  refine ⟨Path.leaves_wayOf_nil hisName, fun folder hfolder hvendor => ?_⟩
  rw [Path.splitOn_wayOf_nil (Locator.ne_nil_of_mem_places hplace)
    fun name hname => (hisName name hname).no_slash] at hfolder
  have hskips := Locator.not_skips_of_mem_places hplace folder hfolder
  simp [Locator.skips, hvendor] at hskips

/-- The way to an answer of the analyzer does not leave the root and crosses no vendor directory. -/
theorem contained_of_isInside (hwf : tree.WellFormed) (hback : tree.NoBackslash)
    (hroot : '\\' ∉ root) (hpath : '\\' ∉ path)
    (h : Analyzer.isInside tree settings (rootOf tree root) path = true) :
    Path.leaves (Path.relative tree.cwd path root) = false ∧
      ∀ folder ∈ (Text.splitOn '/' (Path.relative tree.cwd path root)).dropLast,
        folder ∉ settings.vendorDirs := by
  have hcwd := hwf.not_mem_cwd hback
  have hway : Text.replace '\\' '/' (Path.relative tree.cwd path (rootOf tree root))
      = Path.relative tree.cwd path root := wayTo_eq hcwd hwf.isAbsolute_cwd hroot hpath
  simp only [Analyzer.isInside, hway, Bool.not_or, Bool.and_eq_true, Bool.not_eq_true'] at h
  exact ⟨h.1, (isVendored_eq_false_iff
    (Path.not_mem_relative hcwd hpath (by decide) (by decide))).mp h.2⟩

/-- The way to an accepted entry does not begin with `../` and crosses no vendor directory. -/
theorem contained_entryOf (hwf : tree.WellFormed) (hback : tree.NoBackslash) (hroot : '\\' ∉ root)
    {accepted : Accepted} (h : (resolve tree settings root entry).value = .ok accepted) :
    Text.startsWith ['.', '.', '/'] (Path.relative tree.cwd (entryOf tree root entry) root)
        = false ∧
      ∀ folder ∈ (Text.splitOn '/'
          (Path.relative tree.cwd (entryOf tree root entry) root)).dropLast,
        folder ∉ settings.vendorDirs := by
  have hcwd := hwf.not_mem_cwd hback
  have hpath : '\\' ∉ entryOf tree root entry := Path.not_mem_toSlashes _
  obtain ⟨-, -, -, -, hway, hvendored, -⟩ := resolve_eq_ok_iff.mp h
  rw [wayTo_eq hcwd hwf.isAbsolute_cwd hroot hpath] at hway hvendored
  exact ⟨hway, (isVendored_eq_false_iff
    (Path.not_mem_relative hcwd hpath (by decide) (by decide))).mp hvendored⟩

end Entry

/-- Beside the entry, no way to a path of a run leaves the root. -/
theorem leaves_of_mem_resolveImports (hwf : tree.WellFormed) (hback : tree.NoBackslash)
    (hroot : '\\' ∉ root) {p : Progress} (hran : Ran tree settings grammars root entry paths p)
    {path : Path} (hpath : path ∈ paths) (hne : path ≠ Entry.entryOf tree root entry) :
    Path.leaves (Path.relative tree.cwd path root) = false ∧
      ∀ folder ∈ (Text.splitOn '/' (Path.relative tree.cwd path root)).dropLast,
        folder ∉ settings.vendorDirs := by
  -- A listed place, or an answer that the analyzer has checked.
  rcases hran.mem_cases hpath with
    heq | ⟨d, -, -, files, hfiles, hmem, -⟩ | ⟨m, -, -, files, hfiles, hmem⟩
  · exact absurd heq hne
  · obtain ⟨place, hplace, rfl⟩ := Walker.exists_place_of_documentFiles hfiles hmem
    exact Entry.contained_filePath hwf hback hroot hplace
  · obtain ⟨specifier, directory, hresolve⟩ := Walker.exists_resolve_of_moduleFiles hfiles hmem
    obtain ⟨candidate, -, -, rfl, hinside⟩ := Analyzer.exists_candidate_of_resolve _ _ _ hresolve
    exact Entry.contained_of_isInside hwf hback hroot (Path.not_mem_toSlashes _) hinside

/-- No way to a path of a run begins with `../` or crosses a vendor directory. A way can be `..`
only if it is that of the entry, and then it is the way to a path of the run. -/
theorem contained_resolveImports (hwf : tree.WellFormed) (hback : tree.NoBackslash)
    (hroot : '\\' ∉ root)
    (h : (resolveImports tree settings grammars root entry).value = .ok paths) :
    (∀ path ∈ paths,
      Text.startsWith ['.', '.', '/'] (Path.relative tree.cwd path root) = false ∧
      ∀ folder ∈ (Text.splitOn '/' (Path.relative tree.cwd path root)).dropLast,
        folder ∉ settings.vendorDirs) ∧
    ((∀ path ∈ paths, Path.relative tree.cwd path root ≠ Path.parent) ↔
      ∀ accepted, (Entry.resolve tree settings root entry).value = .ok accepted →
        Path.relative tree.cwd accepted.entry root ≠ Path.parent) := by
  rcases resolveImports_cases h with ⟨hrefused, rfl⟩ | ⟨p, hran⟩
  · exact ⟨by simp, by simp [hrefused]⟩
  have hentry := Entry.contained_entryOf hwf hback hroot hran.accepted
  constructor
  · intro path hpath
    by_cases heq : path = Entry.entryOf tree root entry
    · subst heq
      exact hentry
    · obtain ⟨hleaves, hvendor⟩ := leaves_of_mem_resolveImports hwf hback hroot hran hpath heq
      exact ⟨((Path.leaves_eq_false_iff _).mp hleaves).2, hvendor⟩
  -- The entry is a path of the run, and the only one whose way can be `..`.
  · constructor
    · intro hall accepted haccepted
      obtain rfl : accepted = ⟨Entry.rootOf tree root, Entry.entryOf tree root entry⟩ :=
        (Entry.resolve_eq_ok_iff.mp haccepted).2.2.1
      exact hall (Entry.entryOf tree root entry) hran.entry_mem
    · intro hall path hpath
      by_cases heq : path = Entry.entryOf tree root entry
      · subst heq
        exact hall ⟨Entry.rootOf tree root, Entry.entryOf tree root entry⟩ hran.accepted
      · obtain ⟨hleaves, -⟩ := leaves_of_mem_resolveImports hwf hback hroot hran hpath heq
        exact ((Path.leaves_eq_false_iff _).mp hleaves).1

/-- A project with a vendor directory that holds a module of the same name as one outside it. -/
def vendoredTwin : FileTree where
  top := .folder 0 [("p".toList, .folder 0
    [("d.mdx".toList, .file (Text.encode "import \"./a\"\n".toList) 0),
      ("a.ts".toList, .file [] 0),
      ("node_modules".toList, .folder 0 [("a.ts".toList, .file [] 0)])])]
  cwd := "/p".toList

/-- The module in the vendor directory is not among the paths of the run, as for every run. -/
theorem contained_vendoredTwin :
    (resolveImports vendoredTwin {} (.builtIn []) "/p".toList "d.mdx".toList).value
        = .ok ["/p/a.ts".toList, "/p/d.mdx".toList] ∧
      ∀ path ∈ ["/p/a.ts".toList, "/p/d.mdx".toList],
        Text.startsWith ['.', '.', '/'] (Path.relative "/p".toList path "/p".toList) = false ∧
        ∀ folder ∈ (Text.splitOn '/' (Path.relative "/p".toList path "/p".toList)).dropLast,
          folder ∉ ["node_modules".toList] := by
  have hrun : (resolveImports vendoredTwin {} (.builtIn []) "/p".toList "d.mdx".toList).value
      = .ok ["/p/a.ts".toList, "/p/d.mdx".toList] := by decide +kernel
  have hwf : vendoredTwin.WellFormed :=
    ⟨by decide +kernel, by decide +kernel, ["p".toList], _, _, by decide +kernel, rfl⟩
  exact ⟨hrun, (contained_resolveImports hwf (by decide +kernel) (by decide +kernel) hrun).1⟩

/-- A project with a link by which `link/../f.ts/sub` names the folder `b/f.ts/sub`, while the same
path with `..` carried out passes through the file `f.ts`. -/
def linkedRoot : FileTree where
  top := .folder 0 [("p".toList, .folder 0
    [("link".toList, .link "b/c".toList),
      ("b".toList, .folder 0 [("c".toList, .folder 0 []),
        ("f.ts".toList, .folder 0 [("sub".toList, .folder 0 [])])]),
      ("f.ts".toList, .file [] 0)])]
  cwd := "/p".toList

/-- For this folder as the root, the entry `..` is accepted: the file above the root is a path of
the run. -/
theorem exists_parent_mem_resolveImports :
    linkedRoot.WellFormed ∧ linkedRoot.NoBackslash ∧
      ((linkedRoot.find "/p/link/../f.ts/sub".toList).map fun found => found.2.isFolder)
        = .ok true ∧
      (resolveImports linkedRoot {} (.builtIn []) "/p/link/../f.ts/sub".toList "..".toList).value
        = .ok ["/p/f.ts".toList] ∧
      Path.relative linkedRoot.cwd "/p/f.ts".toList "/p/link/../f.ts/sub".toList
        = Path.parent := by
  refine ⟨⟨by decide +kernel, by decide +kernel, ["p".toList], _, _, by decide +kernel, rfl⟩, ?_⟩
  decide +kernel

end ImportClosure
