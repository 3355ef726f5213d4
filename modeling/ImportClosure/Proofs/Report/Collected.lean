import ImportClosure.Proofs.Report

/-!
# `ImportClosure.Proofs.Report.Collected`: collected files do not depend on the order of their paths

`collect` works on a sorted list of paths. A set of paths has no order, and whoever goes through one
meets each path once, in an order of the set's own. `collectAlong` is that procedure: each path is
dated when it is met, and the files are sorted by path and then, by a second stable sort, by
instant. The main statements:

* `mergeSort_instantLe`: the insertions that `datedFiles` is made of are that stable sort.
* `collectAlong_eq`: whatever the order in which the paths are met, the same files come out.
* `collect_congr`: collections with the same paths have the same files, each path once with its own
  instant and the manifest among them if it is asked for and a file.
-/

set_option autoImplicit false

namespace ImportClosure

/-- Texts that are listed once each are sorted into their set. -/
theorem Text.mergeSort_eq_sortedSet {texts : List Text} (h : texts.Nodup) :
    texts.mergeSort Text.le = Text.sortedSet texts := by
  have htotal : ∀ s t : Text, (Text.le s t || Text.le t s) = true := by
    intro s t
    rw [Bool.or_eq_true]
    exact Text.le_total s t
  have htrans : ∀ s t u : Text, Text.le s t = true → Text.le t u = true → Text.le s u = true := by
    intro s t u
    exact Text.le_trans
  have hsorted : (texts.mergeSort Text.le).Pairwise fun s t => Text.le s t = true :=
    List.pairwise_mergeSort htrans htotal texts
  have hnodup : (texts.mergeSort Text.le).Nodup := List.nodup_mergeSort.mpr h
  have hbefore : (texts.mergeSort Text.le).Pairwise Text.Before := hsorted.and hnodup
  exact hbefore.eq_of_mem_iff (Text.pairwise_sortedSet texts) fun text => by
    rw [List.mem_mergeSort, Text.mem_sortedSet]

/-- What can be written with four digits for its year has a date. -/
theorem Instant.hasDate_of_isWritable {instant : Instant} (h : instant.isWritable = true) :
    instant.hasDate = true := by
  have hpow : Int.pow 2 31 = 2147483648 := by decide
  simp only [isWritable, Bool.and_eq_true, decide_eq_true_eq] at h
  simp only [hasDate, hpow, Bool.and_eq_true, decide_eq_true_eq]
  omega

namespace Report

variable {tree : FileTree} {paths others order : List Path} {path root : Path} {wanted : Bool}
  {file : SourceFile} {files front back : List SourceFile}

/-! ### Sorting by instants -/

/-- The path of the first file is before or equal to that of the second. -/
def pathLe (first second : SourceFile) : Bool := Text.le first.path second.path

/-- The first file is of an earlier instant than the second, or of the same. -/
def instantLe (first second : SourceFile) : Bool :=
  first.modified.micros ≤ second.modified.micros

/-- A file is inserted behind those that are older. -/
theorem insertByInstant_append (h : ∀ other ∈ front, instantLe file other = false) :
    insertByInstant file (front ++ back) = front ++ insertByInstant file back := by
  induction front with
  | nil => rfl
  | cons first rest ih =>
      have hfirst : ¬file.modified.micros ≤ first.modified.micros := by
        simpa [instantLe] using h first List.mem_cons_self
      rw [List.cons_append, insertByInstant, if_neg hfirst,
        ih fun other hother => h other (List.mem_cons_of_mem first hother), List.cons_append]

/-- A file is inserted in front of the first one that is not older. -/
theorem insertByInstant_of_le (h : ∀ other ∈ back, instantLe file other = true) :
    insertByInstant file back = file :: back := by
  cases back with
  | nil => rfl
  | cons first rest =>
      have hfirst : file.modified.micros ≤ first.modified.micros := by
        simpa [instantLe] using h first List.mem_cons_self
      rw [insertByInstant, if_pos hfirst]

/-- Inserting files one after the other, the last one first, is a stable sort by instant. -/
theorem mergeSort_instantLe (files : List SourceFile) :
    files.mergeSort instantLe = files.foldr insertByInstant [] := by
  have htrans : ∀ a b c : SourceFile, instantLe a b → instantLe b c → instantLe a c := by
    intro a b c hab hbc
    simp only [instantLe, decide_eq_true_eq] at *
    omega
  have htotal : ∀ a b : SourceFile, (instantLe a b || instantLe b a) = true := by
    intro a b
    simp only [instantLe, Bool.or_eq_true, decide_eq_true_eq]
    omega
  induction files with
  | nil => exact List.mergeSort_nil
  | cons first rest ih =>
      -- The sorted rest is cut where the first file belongs.
      obtain ⟨front, back, hwhole, hrest, hfront⟩ := List.mergeSort_cons htrans htotal first rest
      have hsorted := List.pairwise_mergeSort htrans htotal (first :: rest)
      rw [hwhole] at hsorted
      have hback : ∀ other ∈ back, instantLe first other = true :=
        (List.pairwise_cons.mp (List.pairwise_append.mp hsorted).2.1).1
      have hfront' : ∀ other ∈ front, instantLe first other = false := by
        intro other hother
        simpa using hfront other hother
      rw [List.foldr_cons, ← ih, hrest, insertByInstant_append hfront',
        insertByInstant_of_le hback, hwhole]

/-! ### Dates -/

/-- The path holds no NUL, and the time of the last change of the file or folder at it can be
written as a date, if there is one. -/
structure IsDatable (tree : FileTree) (path : Path) : Prop where
  no_nul : '\x00' ∉ path
  writable : ∀ nanos ∈ tree.modified? path, (Instant.ofNanos nanos).isWritable = true

instance (tree : FileTree) (path : Path) : Decidable (IsDatable tree path) :=
  decidable_of_iff ('\x00' ∉ path ∧
      ∀ nanos ∈ tree.modified? path, (Instant.ofNanos nanos).isWritable = true)
    ⟨fun h => ⟨h.1, h.2⟩, fun h => ⟨h.no_nul, h.writable⟩⟩

/-- The instant at a path is the time of what is there, or the epoch without anything. -/
theorem IsDatable.modified_eq (h : IsDatable tree path) :
    modified tree path = ((tree.modified? path).map Instant.ofNanos).getD Instant.epoch := by
  cases htime : tree.modified? path with
  | none => simp [modified, htime]
  | some nanos =>
      have hdate := Instant.hasDate_of_isWritable (h.writable nanos htime)
      simp [modified, htime, hdate]

/-- Such a path can be dated. -/
theorem IsDatable.not_isOutOfRange (h : IsDatable tree path) : ¬IsOutOfRange tree path := by
  rintro (hnul | hinstant)
  · exact h.no_nul hnul
  rw [h.modified_eq] at hinstant
  cases htime : tree.modified? path with
  | none =>
      rw [htime] at hinstant
      exact absurd hinstant (by decide)
  | some nanos =>
      rw [htime] at hinstant
      exact absurd (h.writable nanos htime) (Bool.eq_false_iff.mp hinstant)

/-! ### Any order of the paths -/

/-- The source files for paths in the order in which they are met: each is dated in its turn, and
then they are sorted by path and once more by instant. -/
def collectAlong (tree : FileTree) (order : List Path) : Except OutOfRange (List SourceFile) := do
  let files ← order.mapM (date tree)
  return (files.mergeSort pathLe).mergeSort instantLe

/-- The dated files depend on the set of the paths only. -/
theorem datedFiles_congr (h : ∀ path, path ∈ paths ↔ path ∈ others) :
    datedFiles tree paths = datedFiles tree others := by
  rw [datedFiles, datedFiles, Text.sortedSet_eq_of_mem_iff h]

/-- Whatever the order in which the paths of a collection are met, its dated files come out. -/
theorem collectAlong_eq (hnodup : order.Nodup) (hmem : ∀ path, path ∈ order ↔ path ∈ paths)
    (hdates : ∀ path ∈ paths, ¬IsOutOfRange tree path) :
    collectAlong tree order = .ok (datedFiles tree paths) := by
  have hdated := mapM_date fun path hpath => hdates path ((hmem path).mp hpath)
  -- Sorting files by path is sorting their paths.
  have hsort : (order.map fun path => (⟨path, modified tree path⟩ : SourceFile)).mergeSort pathLe
      = (Text.sortedSet paths).map fun path => ⟨path, modified tree path⟩ := by
    rw [← Text.sortedSet_eq_of_mem_iff hmem, ← Text.mergeSort_eq_sortedSet hnodup]
    exact (List.map_mergeSort (r := Text.le) (s := pathLe) fun _ _ _ _ => rfl).symm
  rw [collectAlong, hdated]
  show Except.ok ((List.mergeSort _ pathLe).mergeSort instantLe) = _
  rw [hsort, mergeSort_instantLe, datedFiles]

/-- The paths of a report are those of the collection, and the manifest if it is asked for and a
file. -/
theorem mem_withManifest_iff : path ∈ withManifest tree paths root wanted ↔
    path ∈ paths ∨ wanted = true ∧ path = manifest root ∧ tree.isFile path = true := by
  rw [withManifest]
  split
  · rename_i hmanifest
    rw [Bool.and_eq_true] at hmanifest
    rw [List.mem_cons]
    constructor
    · rintro (rfl | hpath)
      · exact Or.inr ⟨hmanifest.1, rfl, hmanifest.2⟩
      · exact Or.inl hpath
    · rintro (hpath | ⟨-, rfl, -⟩)
      · exact Or.inr hpath
      · exact Or.inl rfl
  · rename_i hmanifest
    constructor
    · exact Or.inl
    · rintro (hpath | ⟨hwanted, rfl, hfile⟩)
      · exact hpath
      · exact absurd (by rw [hwanted, hfile]; rfl) hmanifest

/-- Collections with the same paths have the same files if all times can be written as dates and no
path holds a NUL, and these files come out in whatever order the paths are met. Each path of the
collection is listed once, and so is the manifest if it is asked for and a file. The instant of each
is the time of what is at the path, or the epoch where that cannot be read. -/
theorem collect_congr (tree : FileTree) (root : Path) (wanted : Bool) {paths others : List Path}
    (hsame : ∀ path, path ∈ paths ↔ path ∈ others)
    (hdates : ∀ path ∈ withManifest tree paths root wanted, IsDatable tree path) :
    ∃ files, collect tree paths root wanted = .ok files ∧
      collect tree others root wanted = .ok files ∧
      (∀ order : List Path, order.Nodup →
        (∀ path, path ∈ order ↔ path ∈ withManifest tree paths root wanted) →
        collectAlong tree order = .ok files) ∧
      (files.map (·.path)).Nodup ∧
      (∀ path, path ∈ files.map (·.path) ↔
        path ∈ paths ∨ wanted = true ∧ path = manifest root ∧ tree.isFile path = true) ∧
      ∀ file ∈ files,
        file.modified = ((tree.modified? file.path).map Instant.ofNanos).getD Instant.epoch := by
  have hrange : ∀ path ∈ withManifest tree paths root wanted, ¬IsOutOfRange tree path :=
    fun path hpath => (hdates path hpath).not_isOutOfRange
  have hwatched : ∀ path, path ∈ withManifest tree paths root wanted ↔
      path ∈ withManifest tree others root wanted := by
    intro path
    rw [mem_withManifest_iff, mem_withManifest_iff, hsame]
  have hcollect := collect_eq hrange
  have hothers := collect_eq fun path hpath => hrange path ((hwatched path).mpr hpath)
  rw [← datedFiles_congr hwatched] at hothers
  have hpaths := perm_map_path_datedFiles tree (withManifest tree paths root wanted)
  refine ⟨_, hcollect, hothers, ?_, ?_, ?_, ?_⟩
  · intro order hnodup hmem
    exact collectAlong_eq hnodup hmem hrange
  · exact hpaths.nodup_iff.mpr (Text.pairwise_sortedSet _).nodup
  · intro path
    rw [hpaths.mem_iff, Text.mem_sortedSet, mem_withManifest_iff]
  · intro file hfile
    obtain ⟨hpath, hmodified⟩ := mem_datedFiles.mp hfile
    rw [hmodified, (hdates file.path hpath).modified_eq]

/-- A project with a module and a manifest of one instant. -/
def manifestOfOneInstant : FileTree where
  top := .folder 0 [("p".toList, .folder 0
    [("a.ts".toList, .file [] 5000000), ("package.json".toList, .file [] 5000000)])]
  cwd := "/p".toList

/-- The manifest, a missing file and the module, in two lists, are collected alike. The manifest is
listed once although it is asked for besides. -/
theorem collect_congr_manifestNamed :
    (∀ path ∈ withManifest manifestOfOneInstant
        ["/p/package.json".toList, "/p/b.ts".toList, "/p/a.ts".toList] "/p".toList true,
        IsDatable manifestOfOneInstant path) ∧
      ∃ files, collect manifestOfOneInstant
          ["/p/package.json".toList, "/p/b.ts".toList, "/p/a.ts".toList] "/p".toList true
          = .ok files ∧
        collect manifestOfOneInstant
          ["/p/a.ts".toList, "/p/b.ts".toList, "/p/a.ts".toList, "/p/package.json".toList]
          "/p".toList true = .ok files ∧
        (files.map (·.path)).Nodup ∧ "/p/package.json".toList ∈ files.map (·.path) := by
  have hany : ∀ a b c path : Path, path ∈ [c, b, a] ↔ path ∈ [a, b, a, c] := by
    intro a b c path
    simp only [List.mem_cons, List.not_mem_nil, or_false]
    tauto
  have hdates : ∀ path ∈ withManifest manifestOfOneInstant
      ["/p/package.json".toList, "/p/b.ts".toList, "/p/a.ts".toList] "/p".toList true,
      IsDatable manifestOfOneInstant path := by decide +kernel
  obtain ⟨files, hfiles, hothers, -, hnodup, hmem, -⟩ :=
    collect_congr manifestOfOneInstant "/p".toList true (hany _ _ _) hdates
  exact ⟨hdates, files, hfiles, hothers, hnodup, (hmem _).mpr (Or.inl List.mem_cons_self)⟩

end Report

end ImportClosure
