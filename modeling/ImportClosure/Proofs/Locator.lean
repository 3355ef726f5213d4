import ImportClosure.Locator
import ImportClosure.Proofs.Artifact
import ImportClosure.Proofs.FileTree.Listing
import ImportClosure.Proofs.Path.Spelling
import ImportClosure.Proofs.Text.Sorted

/-!
# `ImportClosure.Proofs.Locator`: what a locator keeps does not show

`Index.paths_ofPlaces` says what an index answers: the paths of the listed places with the name that
is asked for, in the order of texts. `located` is the answer about a target as a function of the
file tree. A locator is `Faithful` if the index that it keeps, if any, is that of the tree. A new
one is (`faithful_new`), and `locate_value` says that a faithful one gives the answer and stays
faithful.

Every located file is `filePath` of a place in the listing (`exists_place_of_mem_located`), so
that there are no more of them than listed places. Its segments are those of the root and the
pieces between the backslashes in the names of the place (`filePath_eq`); in a tree as it is on a
disk, without backslashes, these are the names (`filePath_ofParts`).
-/

set_option autoImplicit false

namespace ImportClosure

namespace Index

/-- The path of a place, relative to the folder that the place is entered from. -/
def pathOf (place : Place) : Path := Text.replace '\\' '/' (Path.ofSegments place)

/-- An added file comes last among those of its name. -/
theorem paths_add (index : Index) (name : Text) (path : Path) (n : Text) :
    (index.add name path).paths n = index.paths n ++ if n = name then [path] else [] := by
  induction index with
  | nil =>
      by_cases hn : n = name
      · simp [add, paths, hn]
      · have hne : (n == name) = false := by simpa using hn
        simp [add, paths, List.lookup_cons, hne, hn]
  | cons first rest ih =>
      obtain ⟨m, files⟩ := first
      rw [add]
      by_cases hm : m = name
      · rw [if_pos hm]
        by_cases hn : n = m
        · simp [paths, hn, hm]
        · have hne : (n == m) = false := by simpa using hn
          have hname : n ≠ name := fun h => hn (h.trans hm.symm)
          simp [paths, List.lookup_cons, hne, hname]
      · rw [if_neg hm]
        by_cases hn : n = m
        · have hname : n ≠ name := fun h => hm (hn.symm.trans h)
          simp [paths, hn, hm]
        · have hne : (n == m) = false := by simpa using hn
          simpa [paths, List.lookup_cons, hne] using ih

/-- A path is inserted in the order of texts. -/
theorem insertPath_eq (path : Path) (files : List Path) :
    insertPath path files = files.orderedInsert Text.AtMost path := by
  induction files with
  | nil => rfl
  | cons p rest ih =>
      rw [insertPath, List.orderedInsert_cons, ih]
      rfl

/-- Inserting all paths of a list into an empty one sorts them. -/
theorem foldr_insertPath (files : List Path) :
    files.foldr insertPath [] = files.insertionSort Text.AtMost := by
  induction files with
  | nil => rfl
  | cons path rest ih => rw [List.foldr_cons, ih, List.insertionSort_cons, insertPath_eq]

/-- Sorting the paths of each name sorts those of a name. -/
theorem paths_map (index : Index) (n : Text) :
    paths (index.map fun (name, files) => (name, files.foldr insertPath [])) n
      = (index.paths n).insertionSort Text.AtMost := by
  induction index with
  | nil => rfl
  | cons first rest ih =>
      obtain ⟨m, files⟩ := first
      by_cases hn : n = m
      · simp [paths, hn, foldr_insertPath]
      · have hne : (n == m) = false := by simpa using hn
        simpa [paths, List.lookup_cons, hne] using ih

/-- The name is the last one of the place. -/
def endsIn (name : Text) (place : Place) : Bool := place.getLast?.getD [] = name

/-- An index holds the paths of the places that end in a name, in the order of texts. -/
theorem paths_ofPlaces (places : List Place) (n : Text) :
    (ofPlaces places).paths n
      = ((places.filter (endsIn n)).map pathOf).insertionSort Text.AtMost := by
  -- The places are added to what the index holds already, so generalize over that.
  have hfold : ∀ index : Index, (places.foldl (fun index place =>
      add index (place.getLast?.getD []) (pathOf place)) index).paths n
        = index.paths n ++ (places.filter (endsIn n)).map pathOf := by
    induction places with
    | nil => exact fun index => (List.append_nil _).symm
    | cons place rest ih =>
        intro index
        rw [List.foldl_cons, ih, paths_add, List.append_assoc, List.filter_cons, endsIn]
        by_cases hn : place.getLast?.getD [] = n
        · simp [hn]
        · simp [hn, Ne.symm hn]
  rw [ofPlaces, paths_map]
  exact congrArg _ (hfold [])

/-- An index holds the path of each place under the last name of the place. -/
theorem mem_paths_ofPlaces (places : List Place) (n : Text) (x : Path) :
    x ∈ (ofPlaces places).paths n
      ↔ ∃ place ∈ places, place.getLast?.getD [] = n ∧ pathOf place = x := by
  rw [paths_ofPlaces, List.mem_insertionSort]
  simp only [List.mem_map, List.mem_filter, endsIn, decide_eq_true_eq, and_assoc]

/-- An added file makes an index longer by one. -/
theorem length_add (index : Index) (name : Text) (path : Path) :
    ((index.add name path).flatMap fun entry => entry.2).length
      = (index.flatMap fun entry => entry.2).length + 1 := by
  induction index with
  | nil => rfl
  | cons first rest ih =>
      obtain ⟨m, files⟩ := first
      rw [add]
      split
      · simp only [List.flatMap_cons, List.length_append, List.length_singleton]
        omega
      · simp only [List.flatMap_cons, List.length_append, ih]
        omega

/-- An index holds as many paths as there are places. -/
theorem length_ofPlaces (places : List Place) :
    ((ofPlaces places).flatMap fun entry => entry.2).length = places.length := by
  have hfold : ∀ index : Index, ((places.foldl (fun index place =>
      add index (place.getLast?.getD []) (pathOf place)) index).flatMap fun entry => entry.2).length
        = (index.flatMap fun entry => entry.2).length + places.length := by
    induction places with
    | nil => simp
    | cons place rest ih =>
        intro index
        rw [List.foldl_cons, ih, length_add, List.length_cons]
        omega
  -- Sorting the paths of each name keeps their number.
  have hmap : ∀ index : Index, ((index.map fun (name, files) =>
      (name, files.foldr insertPath [])).flatMap fun entry => entry.2).length
        = (index.flatMap fun entry => entry.2).length := by
    intro index
    induction index with
    | nil => rfl
    | cons first rest ih =>
        obtain ⟨name, files⟩ := first
        have hlength : (files.foldr insertPath []).length = files.length := by
          rw [foldr_insertPath, List.length_insertionSort]
        rw [List.map_cons, List.flatMap_cons, List.flatMap_cons, List.length_append, ih,
          List.length_append, hlength]
  rw [ofPlaces, hmap]
  exact (hfold []).trans (Nat.zero_add _)

end Index

namespace Locator

/-- A target without backslashes is searched for if it is below the root and none of its names is
that of a vendor directory. -/
theorem isBarred_eq_false_iff {settings : Settings} {target : Path} (hback : '\\' ∉ target) :
    isBarred settings target = false ↔
      target ≠ [] ∧ target ≠ Path.here ∧ Path.leaves target = false ∧
        ∀ name ∈ Text.splitOn '/' target, name ∉ settings.vendorDirs := by
  rw [isBarred, Bool.or_eq_false_iff, isVendored_append_slash hback]
  simp [and_assoc]

variable (tree : FileTree) (settings : Settings) (root : Path)

/-- The path of a place below the root. -/
def filePath (place : Place) : Path :=
  Text.replace '\\' '/' (Path.join root (Index.pathOf place))

/-- The places that searches of the tree can find. -/
def places : List Place := tree.listing (skips settings) root

/-- The files that implement a target. -/
def located (target : Path) : List Path :=
  if isBarred settings (Text.replace '\\' '/' target) then []
  else
    search root (Index.ofPlaces (places tree settings root))
      (candidates settings (Text.replace '\\' '/' target))

/-- The index that the locator keeps, if any, is that of the tree. -/
structure Faithful (locator : Locator) : Prop where
  root_eq : locator.root = root
  settings_eq : locator.settings = settings
  index : ∀ index, locator.index = some index → index = Index.ofPlaces (places tree settings root)

/-- A new locator keeps no index. -/
theorem faithful_new : Faithful tree settings root (new root settings) where
  root_eq := rfl
  settings_eq := rfl
  index := by simp [new]

variable {tree settings root} {locator : Locator}

/-- A faithful locator has the index of the tree after a search, and stays faithful. -/
theorem indexed_value (h : Faithful tree settings root locator) :
    (locator.indexed tree).value.1 = Index.ofPlaces (places tree settings root) ∧
      Faithful tree settings root (locator.indexed tree).value.2 := by
  unfold indexed
  cases hindex : locator.index with
  | some index => exact ⟨h.index index hindex, h⟩
  | none =>
      have hplaces : tree.listing (skips locator.settings) locator.root
          = places tree settings root := by rw [places, h.root_eq, h.settings_eq]
      simp only [hplaces]
      refine ⟨rfl, h.root_eq, h.settings_eq, fun index hsome => ?_⟩
      exact (Option.some.inj hsome).symm

/-- A faithful locator locates the files of a target, and stays faithful. -/
theorem locate_value (h : Faithful tree settings root locator) (target : Path) :
    (locator.locate tree target).value.1 = located tree settings root target ∧
      Faithful tree settings root (locator.locate tree target).value.2 := by
  unfold locate located
  rw [h.settings_eq]
  by_cases hbarred : isBarred settings (Text.replace '\\' '/' target) = true
  · simp only [hbarred, if_true]
    exact ⟨rfl, h⟩
  · obtain ⟨hindex, hafter⟩ := indexed_value h
    simp only [hbarred, if_false, Bool.false_eq_true, Traced.value_bind]
    generalize (locator.indexed tree).value = result at hindex hafter
    obtain ⟨index, after⟩ := result
    simp only at hindex hafter
    subst hindex
    simp only [hafter.root_eq, hafter.settings_eq]
    split <;> exact ⟨rfl, hafter⟩

/-- A located file is that of a place that matches a candidate. -/
theorem mem_located {target file : Path} :
    file ∈ located tree settings root target
      ↔ isBarred settings (Text.replace '\\' '/' target) = false ∧
        ∃ candidate ∈ candidates settings (Text.replace '\\' '/' target),
          ∃ place ∈ places tree settings root,
            place.getLast?.getD [] = Path.fileName candidate ∧
            fits candidate (Index.pathOf place) = true ∧ filePath root place = file := by
  unfold located
  by_cases hbarred : isBarred settings (Text.replace '\\' '/' target) = true
  · simp [hbarred]
  · have hfree : isBarred settings (Text.replace '\\' '/' target) = false := by simpa using hbarred
    simp only [hfree, Bool.false_eq_true, if_false, true_and, search, Text.mem_distinct,
      List.mem_flatMap, List.mem_map, List.mem_filter, Index.mem_paths_ofPlaces]
    constructor
    · rintro ⟨candidate, hc, _, ⟨⟨place, hplace, hname, rfl⟩, hfits⟩, rfl⟩
      exact ⟨candidate, hc, place, hplace, hname, hfits, rfl⟩
    · rintro ⟨candidate, hc, place, hplace, hname, hfits, rfl⟩
      exact ⟨candidate, hc, _, ⟨⟨place, hplace, hname, rfl⟩, hfits⟩, rfl⟩

/-- Every located file is that of a listed place. -/
theorem exists_place_of_mem_located {target file : Path}
    (h : file ∈ located tree settings root target) :
    ∃ place ∈ places tree settings root, filePath root place = file := by
  obtain ⟨-, candidate, -, place, hplace, -, -, hfile⟩ := mem_located.mp h
  exact ⟨place, hplace, hfile⟩

/-! ### The paths of listed places -/

/-- No listed place is empty. -/
theorem ne_nil_of_mem_places {place : Place} (h : place ∈ places tree settings root) :
    place ≠ [] := by
  obtain ⟨_, _, _, -, hlists⟩ := FileTree.mem_listing_iff.mp h
  exact hlists.ne_nil

/-- Listed places consist of names in the tree. -/
theorem named_of_mem_places {Q : Text → Prop} (hQ : tree.top.Named Q) {place : Place}
    (h : place ∈ places tree settings root) : ∀ name ∈ place, Q name := by
  obtain ⟨_, _, _, hfind, hlists⟩ := FileTree.mem_listing_iff.mp h
  exact hlists.named (hQ.at? (FileTree.at?_of_find hfind))

/-- No folder on the way to a listed place is one that searches pass over. -/
theorem not_skips_of_mem_places {place : Place} (h : place ∈ places tree settings root) :
    ∀ name ∈ place.dropLast, skips settings name = false := by
  obtain ⟨_, _, _, -, hlists⟩ := FileTree.mem_listing_iff.mp h
  exact hlists.not_skipped

/-- The path of a listed place holds a NUL only if a name in the tree does. -/
theorem nul_not_mem_filePath (hnames : tree.top.Named fun name => '\x00' ∉ name) {place : Place}
    (h : place ∈ places tree settings root) : '\x00' ∉ filePath root place := by
  obtain ⟨_, _, _, hfind, -⟩ := FileTree.mem_listing_iff.mp h
  have hplace : '\x00' ∉ Path.ofSegments place := by
    intro hmem
    obtain ⟨name, hname, hc⟩ := Path.mem_ofSegments hmem (by decide)
    exact named_of_mem_places hnames h name hname hc
  exact Text.not_mem_replace_of_not_mem (Path.not_mem_join (FileTree.nul_not_mem_of_find hfind)
    (Text.not_mem_replace_of_not_mem hplace (by decide)) (by decide)) (by decide)

/-- Below a normal root a place adds the pieces of its names to the segments of the root. -/
theorem filePath_eq {slashes : Text} {segments : List Text} {place : Place}
    (hroot : Path.IsNormal slashes segments) (hne : Path.ofParts slashes segments ≠ [])
    (hback : '\\' ∉ Path.ofParts slashes segments) (hnames : ∀ name ∈ place, Path.NamePieces name)
    (hnil : place ≠ []) :
    filePath (Path.ofParts slashes segments) place
      = Path.ofParts slashes (segments ++ Path.pieces place) := by
  have hjoin : Path.join (Path.ofParts slashes segments) (Index.pathOf place)
      = Path.ofParts slashes (segments ++ Path.pieces place) := by
    rw [Index.pathOf, Path.replace_ofSegments]
    exact Path.join_ofParts hroot hne (Path.isName_of_mem_pieces hnames)
      (Path.pieces_ne_nil hnil)
  have hclean : '\\' ∉ Path.join (Path.ofParts slashes segments) (Index.pathOf place) :=
    Path.not_mem_join hback (Text.not_mem_replace (by decide) _) (by decide)
  rw [filePath, Text.replace_of_not_mem hclean, hjoin]

/-- Below a normal root a place without backslashes adds its names to those of the root. -/
theorem filePath_ofParts {slashes : Text} {segments : List Text} {place : Place}
    (hroot : Path.IsNormal slashes segments) (hne : Path.ofParts slashes segments ≠ [])
    (hback : '\\' ∉ Path.ofParts slashes segments) (hnames : ∀ name ∈ place, Path.IsName name)
    (hplace : ∀ name ∈ place, '\\' ∉ name) (hnil : place ≠ []) :
    filePath (Path.ofParts slashes segments) place
      = Path.ofParts slashes (segments ++ place) := by
  have hpieces : ∀ name ∈ place, Path.NamePieces name := fun name hname =>
    (hnames name hname).namePieces (hplace name hname)
  rw [filePath_eq hroot hne hback hpieces hnil, Path.pieces_of_not_mem hplace]

/-- Below a plain root the path of a place without backslashes is plain. -/
theorem plain_filePath {base : List Text} {place : Place} (hroot : Path.Plain base root)
    (hback : '\\' ∉ root) (hnames : ∀ name ∈ place, Path.IsName name)
    (hplace : ∀ name ∈ place, '\\' ∉ name) (hnil : place ≠ []) :
    Path.Plain (base ++ place) (filePath root place) := by
  obtain ⟨slashes, hslashes, hparts, rfl⟩ := hroot
  exact ⟨slashes, hslashes, hparts.append hnames, filePath_ofParts hparts
    (List.append_ne_nil_of_left_ne_nil hslashes _) hback hnames hplace hnil⟩

end Locator

end ImportClosure
