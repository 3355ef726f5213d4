import ImportClosure.Proofs.Analyzer.Candidates
import ImportClosure.Proofs.Artifact
import ImportClosure.Proofs.FileTree.Agreement
import ImportClosure.Proofs.Locator
import ImportClosure.Proofs.Path.Below
import ImportClosure.Proofs.Project.Closure

/-!
# `ImportClosure.Proofs.Project.Resolvers`: documents and modules read an import alike

A module's specifier is resolved by trying candidates beside the module, a document's by looking
its target up in an index of the root. `Names` holds of a file that the specifier names in a module,
other than by a source for a compiled extension, and that searches of the root can list.
`mem_locate_iff` says when a search for the target finds this file as well: if the target is below
the root and none of its names is that of a vendor directory.

The exceptions come from what `Locator.isBarred` refuses before it searches. A module can also write
its directory in another way than the root, and then finds another path of the same file
(`join_targetIn` says when the two are written alike). `exists_not_mem_locate` has an example of
each.
-/

set_option autoImplicit false

namespace ImportClosure

open ImportClosure.Path (IsName)

variable {tree : FileTree} {settings : Settings} {root specifier directory file : Path}

namespace Locator

/-- The candidates of a target that ends with no slash. -/
theorem mem_candidates_iff {target candidate : Path} (hend : Path.fileName target ≠ []) :
    candidate ∈ candidates settings target ↔
      (candidate = target ∧ Text.lower (Path.extension target) ∈ settings.sourceExtensions) ∨
      (∃ e ∈ settings.sourceExtensions, candidate = target ++ "/index".toList ++ e) ∨
      ∃ e ∈ settings.sourceExtensions, candidate = target ++ e := by
  have htrim : Text.dropEndWhile (· = '/') target = target := by
    cases target using List.reverseRecOn with
    | nil => rfl
    | append_singleton front last =>
        have hlast : last ≠ '/' := by
          rintro rfl
          exact hend (Path.fileName_append front (by simp))
        simp [Text.dropEndWhile, hlast]
  have hmap : ∀ f : Text → Path, candidate ∈ settings.sourceExtensions.map f ↔
      ∃ e ∈ settings.sourceExtensions, candidate = f e := by
    intro f
    simp only [List.mem_map, eq_comm]
  by_cases hext : Text.lower (Path.extension target) ∈ settings.sourceExtensions
  · simp only [candidates, htrim, hext, if_true, List.mem_append, List.mem_singleton, hmap,
      or_assoc, and_true]
  · simp only [candidates, htrim, hext, if_false, List.mem_append, List.not_mem_nil, hmap,
      false_or, and_false]

end Locator

/-! ### A specifier and the files it names -/

/-- The path that a specifier stands for in a directory, a query included. -/
def namedIn (directory specifier : Path) : Path :=
  Path.normalize (Path.join directory specifier)

/-- The way from the root to what a specifier stands for. -/
def targetIn (tree : FileTree) (root directory specifier : Path) : Path :=
  Path.relative tree.cwd (namedIn directory specifier) root

/-- In a module of the directory the specifier names the file, which is what it stands for, alone
or with a recognized extension, or the index file there. The file is of a recognized kind, and no
folder on the way to it is ignored. -/
structure Names (tree : FileTree) (settings : Settings) (root specifier directory file : Path) :
    Prop where
  resolve_eq : Analyzer.resolve tree settings root specifier directory = some file
  no_query : '?' ∉ specifier
  form : file = namedIn directory specifier ∨
    (∃ e ∈ settings.sourceExtensions, file = namedIn directory specifier ++ e) ∨
    ∃ e ∈ settings.sourceExtensions,
      file = Path.join (namedIn directory specifier) ("index".toList ++ e)
  recognized : (classify settings file).isSome
  not_ignored : ∀ folder ∈ (Text.splitOn '/' (Path.relative tree.cwd file root)).dropLast,
    folder ∉ settings.ignoredDirs

/-- A path that begins with a name does so with more text at its end. -/
theorem exists_first_append {path : Path} {first : Text} {rest : List Text}
    (hsplit : Text.splitOn '/' path = first :: rest) (hfirst : IsName first) (ending : Text) :
    ∃ name more, Text.splitOn '/' (path ++ ending) = name :: more ∧ IsName name := by
  obtain ⟨tail, rfl⟩ : ∃ tail, path = first ++ tail := by
    rw [← Path.ofSegments_splitOn path, hsplit, Path.ofSegments]
    cases rest with
    | nil => exact ⟨[], by simp⟩
    | cons second others => exact ⟨_, by rw [List.intercalate_cons_cons, List.append_assoc]⟩
  obtain ⟨piece, pieces, hpieces⟩ :=
    List.exists_cons_of_ne_nil (Text.splitOn_ne_nil '/' (tail ++ ending))
  have hpiece : '/' ∉ piece := Text.not_mem_of_mem_splitOn (by rw [hpieces]; simp)
  refine ⟨first ++ piece, pieces, ?_, Analyzer.isName_append hfirst hpiece⟩
  rw [List.append_assoc]
  exact Text.splitOn_append_of_not_mem hfirst.no_slash hpieces

/-- A target below the root that is not the root itself consists of names. -/
theorem isName_targetIn (hwf : tree.WellFormed)
    (hhere : targetIn tree root directory specifier ≠ Path.here)
    (hleaves : Path.leaves (targetIn tree root directory specifier) = false) :
    ∀ piece ∈ Text.splitOn '/' (targetIn tree root directory specifier), IsName piece := by
  obtain ⟨names, hnames, -, hway⟩ := Path.exists_names_of_leaves hwf.isAbsolute_cwd hleaves
  have htarget : targetIn tree root directory specifier = Path.wayOf [] names := hway
  have hne : names ≠ [] := by
    rintro rfl
    exact hhere htarget
  rwa [htarget, Path.splitOn_wayOf_nil hne fun name hname => (hnames name hname).no_slash]

/-- The file is a normal path without backslashes, short enough to be followed, and the tree has a
file at its place. -/
theorem Names.is_file (hwf : tree.WellFormed) (hback : tree.NoBackslash) (hlinks : tree.NoLinks)
    (h : Names tree settings root specifier directory file) :
    '\\' ∉ file ∧ Path.normalize file = file ∧ Text.byteLength file < FileTree.maxPathBytes ∧
      ∃ content modified, tree.top.at? (Path.segments (Path.absolute tree.cwd file))
        = some (.file content modified) := by
  obtain ⟨candidate, -, hfile, heq, -⟩ :=
    Analyzer.exists_candidate_of_resolve tree settings root h.resolve_eq
  have hclean := FileTree.not_mem_of_isFile hback hfile
  obtain ⟨start, modified, entries, hcwd, hat⟩ := hwf.cwd
  obtain ⟨content, modified, hnode⟩ := FileTree.exists_at?_of_isFile hwf hlinks hfile
  have hne : candidate ≠ [] := by
    rintro rfl
    simp [FileTree.isFile, FileTree.find] at hfile
  rw [heq, Path.toSlashes_of_not_mem hclean]
  refine ⟨Path.not_mem_normalize hclean (by decide) (by decide), Path.normalize_idem _,
    Nat.lt_of_le_of_lt (Path.byteLength_normalize_le hne) (FileTree.byteLength_lt_of_isFile hfile),
    content, modified, ?_⟩
  -- The answer is the candidate in normal form, which is at the same place.
  rw [hcwd] at hnode ⊢
  rwa [Path.segments_absolute_normalize (hwf.names.of_at? hat)]

/-- The file is the root with a candidate of the target, which begins with a name. -/
theorem Names.exists_candidate (hroot : root ≠ [])
    (h : Names tree settings root specifier directory file)
    (hspelled : Path.join root (targetIn tree root directory specifier)
      = namedIn directory specifier)
    (htarget : ∀ piece ∈ Text.splitOn '/' (targetIn tree root directory specifier),
      IsName piece) :
    ∃ way, file = Path.join root way ∧
      way ∈ Locator.candidates settings (targetIn tree root directory specifier) ∧
      ∃ first rest, Text.splitOn '/' way = first :: rest ∧ IsName first := by
  generalize targetIn tree root directory specifier = target at hspelled htarget ⊢
  obtain ⟨first, rest, hsplit⟩ := List.exists_cons_of_ne_nil (Text.splitOn_ne_nil '/' target)
  have hfirst : IsName first := htarget first (by simp [hsplit])
  have hrel : Path.isAbsolute target = false := Path.isAbsolute_of_splitOn hsplit hfirst
  have hend : Path.fileName target ≠ [] := (Path.isName_fileName htarget).ne_nil
  have hnil : target ≠ [] := by
    rintro rfl
    exact hend rfl
  -- What the specifier stands for ends with the same name as the target.
  have hlast : Path.fileName (namedIn directory specifier) = Path.fileName target := by
    rw [← hspelled, Path.fileName_join hroot hrel]
  rcases h.form with heq | ⟨e, he, heq⟩ | ⟨e, he, heq⟩
  · refine ⟨target, by rw [heq, hspelled], ?_, first, rest, hsplit, hfirst⟩
    refine (Locator.mem_candidates_iff hend).mpr (Or.inl ⟨rfl, ?_⟩)
    rw [← Path.extension_congr hlast, ← heq]
    exact isSome_classify_iff.mp h.recognized
  · refine ⟨target ++ e, ?_, ?_, exists_first_append hsplit hfirst e⟩
    · rw [heq, ← hspelled, Path.join_append hnil]
    · exact (Locator.mem_candidates_iff hend).mpr (Or.inr (Or.inr ⟨e, he, rfl⟩))
  · refine ⟨target ++ '/' :: ("index".toList ++ e), ?_, ?_, exists_first_append hsplit hfirst _⟩
    · rw [heq, Path.join_of_fileName (by rwa [hlast]) rfl, ← hspelled, Path.join_append hnil]
    · exact (Locator.mem_candidates_iff hend).mpr (Or.inr (Or.inl ⟨e, he, by simp⟩))

/-- A search of the root lists the place of the file. -/
theorem Names.mem_places (hwf : tree.WellFormed) (hback : tree.NoBackslash) (hlinks : tree.NoLinks)
    {place : Place} {time : Int} {entries : List (Text × Node)}
    (hroot : tree.find root = .ok (place, .folder time entries)) (hnil : root ≠ [])
    (h : Names tree settings root specifier directory file) {way : Path}
    (hfile : file = Path.join root way) (hway : ∀ piece ∈ Text.splitOn '/' way, IsName piece) :
    Text.splitOn '/' way ∈ Locator.places tree settings root := by
  obtain ⟨hclean, -, hlength, content, modified, hat⟩ := h.is_file hwf hback hlinks
  obtain ⟨start, _, inner, hcwd, hstart⟩ := hwf.cwd
  have hnames := hwf.names.of_at? hstart
  have hplace := FileTree.place_of_find hwf hlinks hroot
  have hfolder := FileTree.at?_of_find hroot
  rw [hfile, hcwd, Path.segments_absolute_join hnames hnil hway, ← hcwd, ← hplace,
    Node.at?_append, hfolder, Option.bind_some] at hat
  have hwayOf : Path.relative tree.cwd file root = way := by
    rw [hfile, hcwd, Path.relative_join hnames hnil hway]
  refine FileTree.mem_listing_iff.mpr ⟨place, time, entries, hroot, ?_⟩
  refine (FileTree.lists_iff (hlinks.at? hfolder) (hwf.distinct.at? hfolder)).mpr
    ⟨Text.splitOn_ne_nil _ _, ⟨content, modified, hat⟩, fun folder hmem => ?_,
      FileTree.walkable_of_byteLength_lt hnil hway
        (by rwa [Path.ofSegments_splitOn, ← hfile])⟩
  -- The file lies outside vendor directories, and no folder on the way to it is ignored.
  obtain ⟨-, -, -, -, hinside⟩ :=
    Analyzer.exists_candidate_of_resolve tree settings root h.resolve_eq
  have hback' : '\\' ∉ Path.relative tree.cwd file root :=
    Path.not_mem_relative (hwf.not_mem_cwd hback) hclean (by decide) (by decide)
  have hignored := h.not_ignored
  rw [Analyzer.isInside_iff (hwf.not_mem_cwd hback) hclean, isVendored_eq_false_iff hback']
    at hinside
  rw [hwayOf] at hinside hignored
  simp [Locator.skips, hinside.2 folder hmem, hignored folder hmem]

/-- A search for the target of the specifier finds the file that the specifier names in a module, if
the target is below the root and none of its names is that of a vendor directory, and if what the
specifier stands for is written as the root with the target. -/
theorem mem_locate_iff (hwf : tree.WellFormed) (hback : tree.NoBackslash) (hlinks : tree.NoLinks)
    {place : Place} {time : Int} {entries : List (Text × Node)}
    (hroot : tree.find root = .ok (place, .folder time entries))
    (h : Names tree settings root specifier directory file)
    (hspelled : Path.join root (targetIn tree root directory specifier)
      = namedIn directory specifier)
    {locator : Locator} (hlocator : Locator.Faithful tree settings root locator) :
    file ∈ (locator.locate tree (targetIn tree root directory specifier)).value.1 ↔
      targetIn tree root directory specifier ≠ Path.here ∧
      Path.leaves (targetIn tree root directory specifier) = false ∧
      ∀ name ∈ Text.splitOn '/' (targetIn tree root directory specifier),
        name ∉ settings.vendorDirs := by
  have hnil : root ≠ [] := by
    rintro rfl
    simp [FileTree.find] at hroot
  obtain ⟨hclean, hnormal, -⟩ := h.is_file hwf hback hlinks
  have hnamed : '\\' ∉ namedIn directory specifier := by
    rcases h.form with heq | ⟨e, -, heq⟩ | ⟨e, -, heq⟩
    · rwa [← heq]
    · exact fun hmem => hclean (by rw [heq]; exact List.mem_append_left _ hmem)
    · refine fun hmem => hclean ?_
      rw [heq, Path.join, if_neg (by simp [Path.isAbsolute, Text.startsWith])]
      split <;> exact List.mem_append_left _ hmem
  have htarget : '\\' ∉ targetIn tree root directory specifier :=
    Path.not_mem_relative (hwf.not_mem_cwd hback) hnamed (by decide) (by decide)
  rw [(Locator.locate_value hlocator _).1, Locator.mem_located, Text.replace_of_not_mem htarget,
    Locator.isBarred_eq_false_iff htarget]
  constructor
  · rintro ⟨⟨-, hhere, hleaves, hvendor⟩, -⟩
    exact ⟨hhere, hleaves, hvendor⟩
  · rintro ⟨hhere, hleaves, hvendor⟩
    have hpieces := isName_targetIn hwf hhere hleaves
    obtain ⟨way, hfile, hcandidate, first, rest, hsplit, hfirst⟩ :=
      h.exists_candidate hnil hspelled hpieces
    have hway : ∀ piece ∈ Text.splitOn '/' way, IsName piece :=
      Path.isName_of_join hnil (by rw [← hfile]; exact hnormal) hsplit hfirst
    have hempty : targetIn tree root directory specifier ≠ [] := by
      intro heq
      rw [heq] at hpieces
      exact (Path.isName_fileName hpieces).ne_nil rfl
    have hpath : Index.pathOf (Text.splitOn '/' way) = way := by
      rw [Index.pathOf, Path.ofSegments_splitOn, Text.replace_of_not_mem]
      exact fun hmem => hclean (by rw [hfile]; exact Path.mem_join hmem)
    refine ⟨⟨hempty, hhere, hleaves, hvendor⟩, way, hcandidate, Text.splitOn '/' way,
      h.mem_places hwf hback hlinks hroot hnil hfile hway, ?_, ?_, ?_⟩
    · rw [Path.getLast?_splitOn, Option.getD_some]
    · rw [hpath, Locator.fits, decide_eq_true rfl, Bool.true_or]
    · rw [Locator.filePath, hpath, ← hfile, Text.replace_of_not_mem hclean]

/-- What a specifier stands for is written as the root with the target, if the root is normal and
the directory begins with the same slashes. -/
theorem join_targetIn (habs : Path.isAbsolute root = true) (hnormal : Path.normalize root = root)
    (hdirectory : Path.leadingSlashes directory = Path.leadingSlashes root)
    (hspecifier : Path.isAbsolute specifier = false)
    (hhere : targetIn tree root directory specifier ≠ Path.here)
    (hleaves : Path.leaves (targetIn tree root directory specifier) = false) :
    Path.join root (targetIn tree root directory specifier) = namedIn directory specifier := by
  obtain ⟨slashes, base, hbase, hslashes, rfl⟩ := Path.exists_ofParts_of_isAbsolute hnormal habs
  rw [hbase.leadingSlashes_ofParts] at hdirectory
  have habsDirectory : Path.isAbsolute directory = true :=
    (Path.isAbsolute_iff directory).mpr (by rwa [hdirectory])
  have hjoined := Path.isAbsolute_join habsDirectory specifier
  obtain ⟨other, names, hnames, -, heq⟩ := Path.exists_ofParts_of_isAbsolute
    (Path.normalize_idem (Path.join directory specifier)) (Path.isAbsolute_normalize hjoined)
  -- Normalizing and joining keep the leading slashes.
  obtain rfl : other = slashes := by
    rw [← hnames.leadingSlashes_ofParts, ← heq, Path.leadingSlashes_normalize hjoined,
      Path.leadingSlashes_join habsDirectory hspecifier, hdirectory]
  have hnamed : namedIn directory specifier = Path.ofParts other names := heq
  rw [targetIn, hnamed] at hhere hleaves ⊢
  exact Path.join_relative hslashes hbase hnames hleaves hhere

/-- A project with a module, index files, and a module with the name of the vendor directory. -/
def shelved : FileTree where
  top := .folder 0 [("p".toList, .folder 0
    [("a.ts".toList, .file [] 0), ("index.ts".toList, .file [] 0),
      ("node_modules.ts".toList, .file [] 0),
      ("b".toList, .folder 0 [("index.ts".toList, .file [] 0)])])]
  cwd := "/".toList

/-- The index file of a folder is found for a document as for a module. -/
theorem mem_locate_shelved :
    Names shelved {} "/p".toList "./b".toList "/p".toList "/p/b/index.ts".toList ∧
      "/p/b/index.ts".toList ∈ ((Locator.new "/p".toList {}).locate shelved
        (targetIn shelved "/p".toList "/p".toList "./b".toList)).value.1 := by
  have hnames : Names shelved {} "/p".toList "./b".toList "/p".toList "/p/b/index.ts".toList :=
    ⟨by decide +kernel, by decide, Or.inr (Or.inr ⟨".ts".toList, by decide, by decide +kernel⟩),
      by decide +kernel, by decide +kernel⟩
  have hhere : targetIn shelved "/p".toList "/p".toList "./b".toList ≠ Path.here := by
    decide +kernel
  have hleaves : Path.leaves (targetIn shelved "/p".toList "/p".toList "./b".toList) = false := by
    decide +kernel
  refine ⟨hnames, (mem_locate_iff ?_ (by decide +kernel) (by decide +kernel) rfl hnames
    (join_targetIn (by decide) (by decide) (by decide) (by decide) hhere hleaves)
    (Locator.faithful_new _ _ _)).mpr ⟨hhere, hleaves, by decide +kernel⟩⟩
  exact ⟨by decide +kernel, by decide +kernel, [], _, _, by decide +kernel, rfl⟩

/-- What a document misses: the index file of the root, a module with the name of a vendor
directory, a module below a directory above the root, and a path in another spelling than the
root. -/
theorem exists_not_mem_locate :
    (Names shelved {} "/p".toList ".".toList "/p".toList "/p/index.ts".toList ∧
      "/p/index.ts".toList ∉ ((Locator.new "/p".toList {}).locate shelved
        (targetIn shelved "/p".toList "/p".toList ".".toList)).value.1) ∧
    (Names shelved {} "/p".toList "./node_modules".toList "/p".toList
        "/p/node_modules.ts".toList ∧
      "/p/node_modules.ts".toList ∉ ((Locator.new "/p".toList {}).locate shelved
        (targetIn shelved "/p".toList "/p".toList "./node_modules".toList)).value.1) ∧
    (∃ settings : Settings,
      Names shelved settings "/p".toList "..".toList "/p".toList "/p/a.ts".toList ∧
      "/p/a.ts".toList ∉ ((Locator.new "/p".toList settings).locate shelved
        (targetIn shelved "/p".toList "/p".toList "..".toList)).value.1) ∧
    (Names shelved {} "/p".toList "./a".toList "//p".toList "//p/a.ts".toList ∧
      "//p/a.ts".toList ∉ ((Locator.new "/p".toList {}).locate shelved
        (targetIn shelved "/p".toList "//p".toList "./a".toList)).value.1) := by
  refine ⟨⟨?_, by decide +kernel⟩, ⟨?_, by decide +kernel⟩,
    ⟨{ moduleExtensions := [".ts".toList, "p/a.ts".toList] }, ?_, by decide +kernel⟩,
    ⟨?_, by decide +kernel⟩⟩
  · exact ⟨by decide +kernel, by decide, Or.inr (Or.inr ⟨".ts".toList, by decide,
      by decide +kernel⟩), by decide +kernel, by decide +kernel⟩
  · exact ⟨by decide +kernel, by decide, Or.inr (Or.inl ⟨".ts".toList, by decide,
      by decide +kernel⟩), by decide +kernel, by decide +kernel⟩
  · exact ⟨by decide +kernel, by decide, Or.inr (Or.inl ⟨"p/a.ts".toList, by decide,
      by decide +kernel⟩), by decide +kernel, by decide +kernel⟩
  · exact ⟨by decide +kernel, by decide, Or.inr (Or.inl ⟨".ts".toList, by decide,
      by decide +kernel⟩), by decide +kernel, by decide +kernel⟩

end ImportClosure
