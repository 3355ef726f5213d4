import ImportClosure.Proofs.Analyzer.Candidates
import ImportClosure.Proofs.Analyzer.Reachable
import ImportClosure.Proofs.FileTree.Agreement

/-!
# `ImportClosure.Proofs.Analyzer.Exposed`: what a specifier asks outside the root

The analyzer takes the first candidate that is a file and only then asks if it lies inside, so a
file outside the root can stand in the way of a candidate below it. `Exposed` are the paths for
which this can happen. `resolve_congr` says that nothing else outside the root counts: in two
trees that agree below the root and on which exposed paths are files, a specifier names the same
file. Where no extension holds a slash, the exposed paths are those of the root with another
ending, apart from those that stay below it: `exposed_iff`.
-/

set_option autoImplicit false

namespace ImportClosure.Analyzer

open FileTree (StaysBelow Hosts Twins)
open ImportClosure.Path (Plain)

variable {tree first second : FileTree} {settings : Settings}
  {grammars : Grammars} {root path : Path} {place : Place}

/-- With each `..` carried out the path names something below the place. -/
def Beneath (place : Place) (path : Path) : Prop :=
  ∃ more, more ≠ [] ∧ Plain (place ++ more) (Path.normalize path)

/-- A path that does not stay below the place, but is a candidate below it or comes before one. -/
def Exposed (settings : Settings) (place : Place) (path : Path) : Prop :=
  ¬StaysBelow place path ∧ ∃ names base front rest, Plain names base ∧
    candidates settings base = front ++ path :: rest ∧ ∃ later ∈ path :: rest, Beneath place later

/-- The same exposed paths are files in both trees. -/
def AgreeExposed (settings : Settings) (place : Place) (first second : FileTree) : Prop :=
  ∀ path, Exposed settings place path → first.isFile path = second.isFile path

/-- The other way round. -/
theorem AgreeExposed.symm (h : AgreeExposed settings place first second) :
    AgreeExposed settings place second first := fun path hpath => (h path hpath).symm

/-! ### Answers that lie inside -/

/-- An answer that lies inside is below the place of the root. -/
theorem beneath_of_isInside (h : tree.Hosts place) (hroot : Plain place root)
    (habs : Path.isAbsolute path = true) (hfile : tree.isFile path = true)
    (hinside : isInside tree settings root (Path.toSlashes path) = true) : Beneath place path := by
  have hclean := FileTree.not_mem_of_isFile h.back hfile
  have hplain : Plain (Path.segments (Path.normalize path)) (Path.normalize path) :=
    Path.plain_normalize habs
  rw [isInside_iff (h.wf.not_mem_cwd h.back) (Path.not_mem_toSlashes _),
    Path.toSlashes_of_not_mem hclean, hroot.leaves_iff hplain] at hinside
  obtain ⟨more, hmore⟩ := hinside.1
  refine ⟨more, ?_, by rwa [hmore]⟩
  rintro rfl
  -- A file cannot be where the folder is.
  obtain ⟨modified, entries, hfolder⟩ := h.folder
  obtain ⟨content, modified, hat⟩ := FileTree.exists_at?_of_isFile h.wf h.links hfile
  rw [Path.absolute_of_isAbsolute _ habs, ← hmore, List.append_nil, hfolder] at hat
  simp at hat

/-- What is picked out of candidates. -/
def pick (tree : FileTree) (settings : Settings) (root : Path) (paths : List Path) : Option Path :=
  ((paths.find? tree.isFile).map Path.toSlashes).filter (isInside tree settings root)

/-- A relative specifier names what is picked out of its candidates. -/
theorem resolve_eq_pick (tree : FileTree) (settings : Settings) (root : Path) {specifier : Text}
    (h : isRelative specifier = true) (directory : Path) :
    resolve tree settings root specifier directory
      = pick tree settings root (candidates settings (specifiedPath specifier directory)) := by
  rw [resolve, if_pos h]
  rfl

/-- Nothing is picked out of candidates that all lie elsewhere. -/
theorem pick_eq_none (h : tree.Hosts place) (hroot : Plain place root) {paths : List Path}
    (habs : ∀ path ∈ paths, Path.isAbsolute path = true)
    (hnone : ∀ path ∈ paths, ¬Beneath place path) : pick tree settings root paths = none := by
  rw [pick, Option.filter_eq_none_iff]
  intro file hfile hinside
  obtain ⟨path, hfind, rfl⟩ := Option.map_eq_some_iff.mp hfile
  have hmem := List.mem_of_find?_eq_some hfind
  exact hnone path hmem
    (beneath_of_isInside h hroot (habs path hmem) (List.find?_some hfind) hinside)

/-! ### Two trees -/

/-- Which candidates lie inside depends on the working directory only. -/
theorem isInside_congr (hcwd : first.cwd = second.cwd) (settings : Settings) (root : Path) :
    isInside first settings root = isInside second settings root := by
  funext path
  rw [isInside, isInside, hcwd]

/-- The same is picked out of paths in two trees, if each of the paths is a file in both or in none,
or neither it nor a later one is the answer in any of them. -/
theorem pick_congr_of_or (hcwd : first.cwd = second.cwd) {paths : List Path}
    (h : ∀ path rest, path :: rest <:+ paths → first.isFile path = second.isFile path ∨
      (pick first settings root (path :: rest) = none ∧
        pick second settings root (path :: rest) = none)) :
    pick first settings root paths = pick second settings root paths := by
  induction paths with
  | nil => rfl
  | cons path rest ih =>
      rcases h path rest List.suffix_rfl with hfile | ⟨hfirst, hsecond⟩
      · have hrest := ih fun p r hsuffix => h p r (hsuffix.trans (List.suffix_cons path rest))
        simp only [pick, List.find?_cons, hfile, isInside_congr hcwd] at hrest ⊢
        cases second.isFile path with
        | true => rfl
        | false => exact hrest
      · rw [hfirst, hsecond]

/-- The same is picked out of candidates in trees that agree below the root and on the exposed
paths. -/
theorem pick_congr (h : Twins place first second) (hroot : Plain place root)
    (hsame : AgreeExposed settings place first second)
    {names : List Text} {base : Path} (hbase : Plain names base) :
    pick first settings root (candidates settings base)
      = pick second settings root (candidates settings base) := by
  refine pick_congr_of_or h.cwd_eq fun path rest hsuffix => ?_
  have habs : ∀ later ∈ path :: rest, Path.isAbsolute later = true := fun later hlater =>
    isAbsolute_of_mem_candidates hbase (hsuffix.subset hlater)
  obtain ⟨front, hpaths⟩ := hsuffix
  by_cases hfile : first.isFile path = second.isFile path
  · exact Or.inl hfile
  · -- The path neither stays below the place nor is exposed, so none of them lies inside.
    have hnone : ∀ later ∈ path :: rest, ¬Beneath place later := by
      intro later hlater hbeneath
      refine hfile (hsame path ⟨fun hstays => hfile (h.isFile_eq hstays), ?_⟩)
      exact ⟨names, base, front, rest, hbase, hpaths.symm, later, hlater, hbeneath⟩
    exact Or.inr ⟨pick_eq_none h.left hroot habs hnone, pick_eq_none h.right hroot habs hnone⟩

/-- In an absolute directory a specifier names the same file in both trees. -/
theorem resolve_congr (h : Twins place first second) (hroot : Plain place root)
    (hsame : AgreeExposed settings place first second)
    {directory : Path} (hdirectory : Path.isAbsolute directory = true) (specifier : Text) :
    resolve first settings root specifier directory
      = resolve second settings root specifier directory := by
  cases hrelative : isRelative specifier with
  | false => simp [resolve, hrelative]
  | true =>
      rw [resolve_eq_pick first settings root hrelative,
        resolve_eq_pick second settings root hrelative]
      have hbase := Path.plain_normalize
        (Path.isAbsolute_join hdirectory (Text.before '?' specifier))
      exact pick_congr h hroot hsame hbase

/-- A module below the root has the same specifiers in both trees. -/
theorem moduleSpecifiers_congr (h : Twins place first second) (hpath : StaysBelow place path) :
    moduleSpecifiers first settings grammars path =
      moduleSpecifiers second settings grammars path := by
  rw [moduleSpecifiers, moduleSpecifiers, h.read_eq hpath]

/-- A module below the root imports the same files in both trees. -/
theorem moduleImports_congr (h : Twins place first second) (hroot : Plain place root)
    (hsame : AgreeExposed settings place first second)
    (hpath : StaysBelow place path) :
    moduleImports first settings grammars root path
      = moduleImports second settings grammars root path := by
  have hdirectory := Path.isAbsolute_directory hpath.1
  simp only [moduleImports, moduleSpecifiers_congr h hpath,
    resolve_congr h hroot hsame hdirectory]

/-! ### Extensions without slashes -/

/-- A plain path below the place stays below it. -/
theorem not_exposed_of_plain {below : List Text} (h : Plain (place ++ below) path) :
    ¬Exposed settings place path := by
  intro hexposed
  exact hexposed.1 (FileTree.staysBelow_of_plain h)

/-- The names of a plain path beneath a place go on from the place. -/
theorem exists_append_of_beneath {names : List Text} (h : Plain names path)
    (hbeneath : Beneath place path) : ∃ more, more ≠ [] ∧ names = place ++ more := by
  obtain ⟨more, hmore, hplain⟩ := hbeneath
  have hsegments := hplain.segments
  rw [h.normalize, h.segments] at hsegments
  exact ⟨more, hmore, hsegments⟩

/-- A proper beginning of some names and one more is a beginning of the names. -/
theorem prefix_of_append_singleton {names more : List Text} {last : Text} (hmore : more ≠ [])
    (h : names ++ [last] = place ++ more) : place <+: names := by
  have hdrop := congrArg List.dropLast h
  rw [List.dropLast_concat, List.dropLast_append_of_ne_nil hmore] at hdrop
  exact ⟨more.dropLast, hdrop.symm⟩

/-- The top with an extension is not beneath any place but the top. -/
theorem eq_nil_of_beneath_append {base : Path} {e : Text} (hbase : Plain [] base) (he : '/' ∉ e)
    (h : Beneath place (base ++ e)) : place = [] := by
  obtain ⟨slashes, hslashes, hparts, rfl⟩ := hbase
  have htop : Path.ofParts slashes [] = slashes := by simp [Path.ofParts, Path.ofSegments]
  rw [htop] at h
  obtain ⟨more, hmore, hplain⟩ := h
  -- One segment at most is left, also where the extension is `.` or `..`.
  have hshort : (Path.segments (Path.normalize (slashes ++ e))).length ≤ 1 := by
    by_cases hname : Path.IsName e
    · have hnormal : Path.IsNormal slashes [e] :=
        Path.isNormal_of_isName hparts.leading (by simpa using hname)
      have heq : slashes ++ e = Path.ofParts slashes [e] := by
        simp [Path.ofParts, Path.ofSegments]
      have hne : slashes ++ Path.ofSegments [e] ≠ [] := List.append_ne_nil_of_left_ne_nil hslashes _
      rw [heq, hnormal.normalize_ofParts hne, hnormal.segments_ofParts]
      simp
    · have hcases := Path.eq_of_not_isName he hname
      rcases hparts.leading with rfl | rfl | rfl
      · contradiction
      · rcases hcases with rfl | rfl | rfl <;> decide
      · rcases hcases with rfl | rfl | rfl <;> decide
  rw [hplain.segments, List.length_append] at hshort
  have hpos : 0 < more.length := List.length_pos_iff.mpr hmore
  exact List.length_eq_zero_iff.mp (by omega)

/-- Where no extension holds a slash, a path with a candidate beneath the place is the place
itself, or its folder is the place or below it. -/
theorem eq_or_prefix_of_beneath {names : List Text} {base later : Path} (hbase : Plain names base)
    (hslash : ∀ e ∈ settings.sourceExtensions, '/' ∉ e)
    (hlater : later ∈ candidates settings base) (h : Beneath place later) :
    names = place ∨ ∃ folder last, names = folder ++ [last] ∧ place <+: folder := by
  cases names using List.reverseRecOn with
  | nil =>
      left
      rcases mem_candidates_iff.mp hlater with
        rfl | ⟨hcompiled, -⟩ | ⟨e, he, rfl⟩ | ⟨e, he, rfl⟩
      · obtain ⟨more, hmore, heq⟩ := exists_append_of_beneath hbase h
        exact absurd (List.append_eq_nil_iff.mp heq.symm).2 hmore
      · obtain ⟨folder, last, _, _, hnames, -⟩ :=
          exists_stem_of_plain hbase (extension_ne_nil hcompiled)
        simp at hnames
      · exact (eq_nil_of_beneath_append hbase (hslash e he) h).symm
      · obtain ⟨more, hmore, heq⟩ := exists_append_of_beneath (plain_index hbase (hslash e he)) h
        rw [List.nil_append, List.singleton_eq_append_iff] at heq
        grind
  | append_singleton folder last =>
      obtain ⟨name, hplain⟩ := plain_of_mem_candidates hbase hslash hlater
      rcases hplain with hplain | hplain
      -- The candidate is in the same folder as the path.
      · obtain ⟨more, hmore, heq⟩ := exists_append_of_beneath hplain h
        exact Or.inr ⟨folder, last, rfl, prefix_of_append_singleton hmore heq⟩
      -- The candidate is an index file, in the folder that the path names.
      · obtain ⟨more, hmore, heq⟩ := exists_append_of_beneath hplain h
        rcases List.prefix_concat_iff.mp (prefix_of_append_singleton hmore heq) with heq | hprefix
        · exact Or.inl heq.symm
        · exact Or.inr ⟨folder, last, rfl, hprefix⟩

/-- The second path is the first one with another ending: that of a source in place of one that a
compiler writes, or a recognized one at its end. -/
def Ends (settings : Settings) (base path : Path) : Prop :=
  (Path.extension base ∈ compiledExtensions ∧
      ∃ e ∈ compilableExtensions, path = Path.stem base ++ e) ∨
    ∃ e ∈ settings.sourceExtensions, path = base ++ e

/-- Where no extension holds a slash, an exposed path is that of the place with another ending. -/
theorem exists_ends_of_exposed (hslash : ∀ e ∈ settings.sourceExtensions, '/' ∉ e)
    (h : Exposed settings place path) : ∃ base, Plain place base ∧ Ends settings base path := by
  obtain ⟨-, names, base, front, rest, hbase, hcandidates, later, hlater, hbeneath⟩ := id h
  have hmem : ∀ p ∈ path :: rest, p ∈ candidates settings base := by
    intro p hp
    rw [hcandidates]
    exact List.mem_append_right front hp
  have hpath : path ∈ candidates settings base := hmem path (by simp)
  rcases eq_or_prefix_of_beneath hbase hslash (hmem later hlater) hbeneath with
    rfl | ⟨folder, last, rfl, below, rfl⟩
  · refine ⟨base, hbase, ?_⟩
    -- The place itself and its index files stay below it, so the path has another ending.
    rcases mem_candidates_iff.mp hpath with rfl | hsource | hending | ⟨e, he, rfl⟩
    · exact absurd h (not_exposed_of_plain (by rwa [List.append_nil]))
    · exact Or.inl hsource
    · exact Or.inr hending
    · exact absurd h (not_exposed_of_plain (plain_index hbase (hslash e he)))
  · obtain ⟨name, hplain | hplain⟩ := plain_of_mem_candidates hbase hslash hpath
    · rw [List.append_assoc] at hplain
      exact absurd h (not_exposed_of_plain hplain)
    · rw [List.append_assoc, List.append_assoc] at hplain
      exact absurd h (not_exposed_of_plain hplain)

/-- A path of the place with another ending comes before the place's index files. So it is exposed
unless it stays below the place. -/
theorem Ends.exposed {base : Path} {e : Text} (hending : Ends settings base path)
    (hbase : Plain place base) (he : e ∈ settings.sourceExtensions) (hslash : '/' ∉ e)
    (hstays : ¬StaysBelow place path) : Exposed settings place path := by
  obtain ⟨before, indices, hcandidates, hmem, hindex⟩ : ∃ before indices,
      candidates settings base = before ++ indices ∧ path ∈ before ∧
        Path.join base ("index".toList ++ e) ∈ indices := by
    refine ⟨_, _, rfl, ?_, List.mem_map_of_mem he⟩
    rcases hending with ⟨hcompiled, source, hsource, rfl⟩ | ⟨ending, hmem, rfl⟩
    · rw [if_pos hcompiled]
      simp [List.mem_map_of_mem hsource]
    · simp [List.mem_map_of_mem hmem]
  obtain ⟨front, rest, rfl⟩ := List.append_of_mem hmem
  rw [List.append_assoc, List.cons_append] at hcandidates
  refine ⟨hstays, place, base, front, _, hbase, hcandidates, _,
    List.mem_cons_of_mem _ (List.mem_append_right rest hindex), ["index".toList ++ e], by simp, ?_⟩
  have hplain := plain_index hbase hslash
  rwa [hplain.normalize]

/-- Where no extension holds a slash, the exposed paths are those of the place with another ending
that do not stay below it. -/
theorem exposed_iff (hsome : settings.sourceExtensions ≠ [])
    (hslash : ∀ e ∈ settings.sourceExtensions, '/' ∉ e) :
    Exposed settings place path ↔
      ¬StaysBelow place path ∧ ∃ base, Plain place base ∧ Ends settings base path := by
  constructor
  · intro h
    exact ⟨h.1, exists_ends_of_exposed hslash h⟩
  · rintro ⟨hstays, base, hbase, hending⟩
    obtain ⟨e, he⟩ := List.exists_mem_of_ne_nil _ hsome
    exact hending.exposed hbase he (hslash e he) hstays

end ImportClosure.Analyzer
