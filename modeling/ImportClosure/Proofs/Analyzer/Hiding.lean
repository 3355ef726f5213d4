import ImportClosure.Proofs.Analyzer.Exposed
import ImportClosure.Proofs.FileTree.BesideVendor

/-!
# `ImportClosure.Proofs.Analyzer.Hiding`: what a specifier asks in vendor directories

The analyzer takes the first candidate that is a file, so a file in a vendor directory can stand in
the way of a project file that is a later candidate, and a folder in one can be what a path such as
`/p/vendor/../a.ts` needs. `Hiding` are the paths for which this can happen. Nothing else in vendor
directories counts: in two trees that are the same beside them, and on which hiding paths are files,
a specifier names the same file (`resolve_congr_of_hiding`).

Where no extension holds a slash and `..` is no vendor directory, no hiding path can be a file in
one of the trees only: `agreeHiding_of_no_slash`.
-/

set_option autoImplicit false

namespace ImportClosure.Analyzer

open FileTree (Regular SameBesideVendor Clear)
open ImportClosure.Path (Plain IsName)

variable {tree first second : FileTree} {settings : Settings}
  {grammars : Grammars} {root path : Path} {place : Place}

/-- A path that is not clear, but is a candidate that lies inside or comes before one. -/
def Hiding (tree : FileTree) (settings : Settings) (root path : Path) : Prop :=
  ¬Clear tree settings root path ∧ ∃ names base front rest, Plain names base ∧
    candidates settings base = front ++ path :: rest ∧
    ∃ later ∈ path :: rest, '\\' ∉ later ∧ isInside tree settings root later = true

/-- The same hiding paths are files in both trees. -/
def AgreeHiding (settings : Settings) (root : Path) (first second : FileTree) : Prop :=
  ∀ path, Hiding first settings root path → first.isFile path = second.isFile path

/-- What is hiding depends on the working directory only. -/
theorem hiding_congr (hcwd : first.cwd = second.cwd) :
    Hiding first settings root path ↔ Hiding second settings root path := by
  rw [Hiding, Hiding, FileTree.clear_congr hcwd, isInside_congr hcwd]

/-- The other way round. -/
theorem AgreeHiding.symm (hcwd : first.cwd = second.cwd)
    (h : AgreeHiding settings root first second) : AgreeHiding settings root second first :=
  fun path hpath => (h path ((hiding_congr hcwd).mpr hpath)).symm

/-- What lies inside depends on what the root is made absolute to. -/
theorem isInside_absolute (hcwd : Path.isAbsolute tree.cwd = true) (settings : Settings)
    (root : Path) :
    isInside tree settings (Path.absolute tree.cwd root) = isInside tree settings root := by
  funext path
  rw [isInside, isInside, Path.relative_absolute hcwd]

/-- What is hiding depends on what the root is made absolute to. -/
theorem hiding_absolute (hcwd : Path.isAbsolute tree.cwd = true) :
    Hiding tree settings (Path.absolute tree.cwd root) path ↔ Hiding tree settings root path := by
  rw [Hiding, Hiding, FileTree.clear_absolute hcwd, isInside_absolute hcwd]

/-! ### Two trees -/

/-- Nothing is picked out of absolute paths that all lie elsewhere. -/
theorem pick_eq_none_of_forall (hback : tree.NoBackslash) {paths : List Path}
    (habs : ∀ path ∈ paths, Path.isAbsolute path = true)
    (hnone : ∀ path ∈ paths, '\\' ∉ path → isInside tree settings root path = false) :
    pick tree settings root paths = none := by
  rw [pick, Option.filter_eq_none_iff]
  intro file hfile hinside
  obtain ⟨path, hfind, rfl⟩ := Option.map_eq_some_iff.mp hfile
  have hmem := List.mem_of_find?_eq_some hfind
  have hclean := FileTree.not_mem_of_isFile hback (List.find?_some hfind)
  have hother := hnone path hmem hclean
  rw [isInside, Path.toSlashes_of_not_mem hclean,
    Path.relative_normalize tree.cwd (habs path hmem)] at hinside
  rw [isInside] at hother
  rw [hother] at hinside
  contradiction

/-- The same is picked out of candidates in trees that are the same beside vendor directories and on
which hiding paths are files. -/
theorem pick_congr_of_hiding (h : SameBesideVendor settings root first second)
    (hsame : AgreeHiding settings root first second) {names : List Text} {base : Path}
    (hbase : Plain names base) :
    pick first settings root (candidates settings base)
      = pick second settings root (candidates settings base) := by
  refine pick_congr_of_or h.cwd_eq fun path rest hsuffix => ?_
  have habs : ∀ later ∈ path :: rest, Path.isAbsolute later = true := fun later hlater =>
    isAbsolute_of_mem_candidates hbase (hsuffix.subset hlater)
  obtain ⟨front, hpaths⟩ := hsuffix
  by_cases hfile : first.isFile path = second.isFile path
  · exact Or.inl hfile
  · -- The path is neither clear nor hiding, so none of them lies inside.
    have hnone : ∀ later ∈ path :: rest, '\\' ∉ later →
        isInside first settings root later = false := by
      intro later hlater hclean
      rw [Bool.eq_false_iff]
      intro hinside
      refine hfile (hsame path ⟨fun hclear => hfile (h.isFile_eq (habs path (by simp)) hclear), ?_⟩)
      exact ⟨names, base, front, rest, hbase, hpaths.symm, later, hlater, hclean, hinside⟩
    refine Or.inr ⟨pick_eq_none_of_forall h.left.back habs hnone,
      pick_eq_none_of_forall h.right.back habs ?_⟩
    rwa [← isInside_congr h.cwd_eq]

/-- In an absolute directory a specifier names the same file in two trees that are the same beside
vendor directories and on which hiding paths are files. -/
theorem resolve_congr_of_hiding (h : SameBesideVendor settings root first second)
    (hsame : AgreeHiding settings root first second) {directory : Path}
    (hdirectory : Path.isAbsolute directory = true) (specifier : Text) :
    resolve first settings root specifier directory
      = resolve second settings root specifier directory := by
  cases hrelative : isRelative specifier with
  | false => simp [resolve, hrelative]
  | true =>
      rw [resolve_eq_pick first settings root hrelative,
        resolve_eq_pick second settings root hrelative]
      exact pick_congr_of_hiding h hsame
        (Path.plain_normalize (Path.isAbsolute_join hdirectory (Text.before '?' specifier)))

/-- A module that can be read in both trees has the same specifiers in both. -/
theorem moduleSpecifiers_of_read
    (hread : ∀ content, first.read path = .ok content → second.read path = .ok content)
    {specifiers : List Text}
    (h : moduleSpecifiers first settings grammars path = .ok specifiers) :
    moduleSpecifiers second settings grammars path = .ok specifiers := by
  unfold moduleSpecifiers at h ⊢
  cases hlanguage : Syntax.Language.ofExtension? (Text.lower (Path.extension path)) with
  | none => simp [hlanguage] at h
  | some language =>
      cases hfirst : first.read path with
      | error trouble => simp [hlanguage, hfirst] at h
      | ok content =>
          rw [hlanguage, hfirst] at h
          rw [hread content hfirst]
          exact h

/-- A module of a clear path imports the same files in both trees. -/
theorem moduleImports_of_hiding (h : SameBesideVendor settings root first second)
    (hsame : AgreeHiding settings root first second) (habs : Path.isAbsolute path = true)
    (hclear : Clear first settings root path) {files : List Path}
    (hfiles : moduleImports first settings grammars root path = .ok files) :
    moduleImports second settings grammars root path = .ok files := by
  unfold moduleImports at hfiles ⊢
  cases hspecifiers : moduleSpecifiers first settings grammars path with
  | error failure => simp [hspecifiers, Except.map] at hfiles
  | ok specifiers =>
      rw [moduleSpecifiers_of_read (fun content => (h.read_eq_ok_iff habs hclear content).mp)
        hspecifiers]
      rw [hspecifiers] at hfiles
      simp only [← resolve_congr_of_hiding h hsame (Path.isAbsolute_directory habs)]
      exact hfiles

/-! ### Extensions without slashes -/

/-- A way of `..` and names crosses no vendor directory, if neither `..` nor one of the names but
the last is that of one. -/
theorem isVendored_wayOf_eq_false {up down : List Text} (hup : Path.parent ∉ settings.vendorDirs)
    (hdown : ∀ name ∈ down, IsName name) (hback : ∀ name ∈ down, '\\' ∉ name)
    (h : ∀ name ∈ down.dropLast, name ∉ settings.vendorDirs) :
    isVendored settings (Path.wayOf up down) = false := by
  have hsteps : ∀ step ∈ up.map (fun _ => Path.parent) ++ down, '/' ∉ step ∧ '\\' ∉ step := by
    intro step hstep
    rcases List.mem_append.mp hstep with hstep | hstep
    · obtain ⟨_, -, rfl⟩ := List.mem_map.mp hstep
      decide
    · exact ⟨(hdown step hstep).no_slash, hback step hstep⟩
  rw [Path.wayOf]
  split
  · simp [isVendored, show Path.folders Path.here = [] by decide]
  · rename_i hne
    have hclean : '\\' ∉ Path.ofSegments (up.map (fun _ => Path.parent) ++ down) := by
      intro hmem
      obtain ⟨step, hstep, hc⟩ := Path.mem_ofSegments hmem (by decide)
      exact (hsteps step hstep).2 hc
    rw [isVendored_eq_false_iff hclean,
      Path.splitOn_ofSegments hne fun step hstep => (hsteps step hstep).1]
    intro folder hfolder
    by_cases hnil : down = []
    · rw [hnil, List.append_nil] at hfolder
      obtain ⟨_, -, rfl⟩ := List.mem_map.mp (List.mem_of_mem_dropLast hfolder)
      exact hup
    · rw [List.dropLast_append_of_ne_nil hnil] at hfolder
      rcases List.mem_append.mp hfolder with hfolder | hfolder
      · obtain ⟨_, -, rfl⟩ := List.mem_map.mp hfolder
        exact hup
      · exact h folder hfolder

/-- A plain path is clear if all but the last of the names that are not those of the root are no
vendor directories, and neither is `..`. -/
theorem clear_of_plain {names : List Text} (hroot : Plain place root)
    (hup : Path.parent ∉ settings.vendorDirs) (hpath : Plain names path) (hback : '\\' ∉ path)
    (h : ∀ name ∈ (Path.dropCommon place names).2.dropLast, name ∉ settings.vendorDirs) :
    Clear tree settings root path := by
  refine ⟨hpath.normalize, ?_⟩
  have hway : Path.relative tree.cwd path root
      = Path.wayOf (Path.dropCommon place names).1 (Path.dropCommon place names).2 := by
    rw [Path.relative, hroot.absolute, hpath.absolute, hroot.segments, hpath.segments]
    rfl
  obtain ⟨common, -, hnames⟩ := Path.exists_append_dropCommon place names
  have hmem : ∀ name ∈ (Path.dropCommon place names).2, name ∈ names := by
    intro name hname
    rw [hnames]
    exact List.mem_append_right common hname
  rw [hway]
  exact isVendored_wayOf_eq_false hup (fun name hname => hpath.isName name (hmem name hname))
    (fun name hname => hpath.not_mem_name hback name (hmem name hname)) h

/-- Of one name at most, all but the last are none. -/
theorem dropLast_dropCommon {names : List Text} (h : names.length ≤ 1) (place : List Text) :
    (Path.dropCommon place names).2.dropLast = [] := by
  obtain ⟨common, -, hnames⟩ := Path.exists_append_dropCommon place names
  have hlength := congrArg List.length hnames
  rw [List.length_append] at hlength
  rw [← List.length_eq_zero_iff, List.length_dropLast]
  omega

/-- A plain path is clear if another one that goes on from the same folder lies inside, unless `..`
is a vendor directory. -/
theorem clear_of_isInside (h : tree.Regular) (hroot : Plain place root)
    (hup : Path.parent ∉ settings.vendorDirs) {folder more : List Text} {name : Text} {later : Path}
    (hpath : Plain (folder ++ [name]) path) (hback : '\\' ∉ path)
    (hlater : Plain (folder ++ more) later) (hmore : more ≠ []) (hback' : '\\' ∉ later)
    (hinside : isInside tree settings root later = true) : Clear tree settings root path := by
  have hcwd := h.wf.not_mem_cwd h.back
  rw [isInside_iff hcwd hback', hroot.leaves_iff hlater] at hinside
  obtain ⟨⟨rest, hrest⟩, hvendored⟩ := hinside
  refine clear_of_plain hroot hup hpath hback ?_
  rcases List.append_eq_append_iff.mp hrest with ⟨below, rfl, rfl⟩ | ⟨below, rfl, hbelow⟩
  · -- The folder is the root or below it, and on the way to it both paths go together.
    rw [List.append_assoc, Path.dropCommon_append, List.dropLast_concat]
    rw [List.append_assoc] at hlater
    have hway : '\\' ∉ Path.relative tree.cwd later root :=
      Path.not_mem_relative hcwd hback' (by decide) (by decide)
    have hne : below ++ more ≠ [] := List.append_ne_nil_of_right_ne_nil below hmore
    have hslash : ∀ name ∈ below ++ more, '/' ∉ name := fun name hname =>
      (hlater.isName name (List.mem_append_right place hname)).no_slash
    rw [isVendored_eq_false_iff hway, hroot.relative_append hlater,
      Path.splitOn_wayOf_nil hne hslash, List.dropLast_append_of_ne_nil hmore] at hvendored
    exact fun name hname => hvendored name (List.mem_append_left _ hname)
  · -- The folder is above the root, so that one name at most is left.
    rw [Path.dropCommon_append_append, dropLast_dropCommon (by simp)]
    simp

/-- Where no extension holds a slash, the candidates of the top that are files are plain paths of
one name at most. -/
theorem exists_plain_of_isFile (h : tree.Regular) {base : Path} (hbase : Plain [] base)
    (hslash : ∀ e ∈ settings.sourceExtensions, '/' ∉ e) (hpath : path ∈ candidates settings base)
    (hfile : tree.isFile path = true) : ∃ names, Plain names path ∧ names.length ≤ 1 := by
  rcases mem_candidates_iff.mp hpath with rfl | ⟨hcompiled, -⟩ | ⟨e, he, rfl⟩ | ⟨e, he, rfl⟩
  · exact ⟨[], hbase, by simp⟩
  · obtain ⟨folder, last, _, _, hnames, -⟩ :=
      exists_stem_of_plain hbase (extension_ne_nil hcompiled)
    simp at hnames
  · obtain ⟨slashes, hslashes, hparts, rfl⟩ := hbase
    have htop : Path.ofParts slashes [] = slashes := by simp [Path.ofParts, Path.ofSegments]
    rw [htop] at hfile ⊢
    by_cases hname : IsName e
    · have hnormal : Path.IsNormal slashes [e] :=
        Path.isNormal_of_isName hparts.leading (by simpa using hname)
      refine ⟨[e], ⟨slashes, hslashes, hnormal, ?_⟩, by simp⟩
      simp [Path.ofParts, Path.ofSegments]
    · -- Any other extension leads to the top again, which is a folder.
      have htops : ∀ slashes ∈ [['/'], ['/', '/']], ∀ e ∈ [[], Path.here, Path.parent],
          Path.isAbsolute (slashes ++ e) = true ∧
            Path.segments (Path.normalize (slashes ++ e)) = [] := by decide
      have hslashes' : slashes ∈ [['/'], ['/', '/']] := by
        rcases hparts.leading with rfl | rfl | rfl <;> simp at hslashes ⊢
      have he' : e ∈ [[], Path.here, Path.parent] := by
        simpa using Path.eq_of_not_isName (hslash e he) hname
      obtain ⟨habs, hsegments⟩ := htops slashes hslashes' e he'
      rw [FileTree.isFile_eq_false_of_top h.wf h.links habs hsegments] at hfile
      contradiction
  · exact ⟨_, plain_index hbase (hslash e he), by simp⟩

/-- Where no extension holds a slash, a candidate of a plain path is in a folder that it and all
later candidates are in or below. -/
theorem exists_folder_of_candidates {names : List Text} {last : Text} {base : Path}
    {front rest : List Path} (hbase : Plain (names ++ [last]) base)
    (hslash : ∀ e ∈ settings.sourceExtensions, '/' ∉ e)
    (hcandidates : candidates settings base = front ++ path :: rest) :
    ∃ folder name, Plain (folder ++ [name]) path ∧
      ∀ later ∈ path :: rest, ∃ more, more ≠ [] ∧ Plain (folder ++ more) later := by
  obtain ⟨beside, indices, heq, hbeside, hindices⟩ := exists_candidates_eq_append hbase hslash
  -- The path is beside the folder of the index files, or only index files come after it.
  have hcases : path ∈ beside ∨ ∀ p ∈ path :: rest, p ∈ indices := by
    rw [heq] at hcandidates
    rcases List.append_eq_append_iff.mp hcandidates with ⟨more, -, hmore⟩ | ⟨more, hmore, htail⟩
    · refine Or.inr fun p hp => ?_
      rw [hmore]
      exact List.mem_append_right more hp
    · cases more with
      | nil =>
          rw [List.nil_append] at htail
          exact Or.inr fun p hp => htail ▸ hp
      | cons first others =>
          obtain ⟨rfl, -⟩ := List.cons.inj htail
          exact Or.inl (by rw [hmore]; simp)
  rcases hcases with hpath | hall
  · obtain ⟨name, hplain⟩ := hbeside path hpath
    refine ⟨names, name, hplain, fun later hlater => ?_⟩
    have hmem : later ∈ beside ++ indices := by
      rw [← heq, hcandidates]
      exact List.mem_append_right front hlater
    rcases List.mem_append.mp hmem with hmem | hmem
    · obtain ⟨other, hother⟩ := hbeside later hmem
      exact ⟨[other], by simp, hother⟩
    · obtain ⟨other, hother⟩ := hindices later hmem
      exact ⟨[last, other], by simp, by rwa [List.append_assoc] at hother⟩
  · obtain ⟨name, hplain⟩ := hindices path (hall path (by simp))
    refine ⟨names ++ [last], name, hplain, fun later hlater => ?_⟩
    obtain ⟨other, hother⟩ := hindices later (hall later hlater)
    exact ⟨[other], by simp, hother⟩

/-- In a regular tree no hiding path is a file, where no extension holds a slash and `..` is no
vendor directory. -/
theorem isFile_eq_false_of_hiding (h : tree.Regular)
    (hslash : ∀ e ∈ settings.sourceExtensions, '/' ∉ e) (hup : Path.parent ∉ settings.vendorDirs)
    (hhiding : Hiding tree settings root path) : tree.isFile path = false := by
  rw [← hiding_absolute h.wf.isAbsolute_cwd] at hhiding
  obtain ⟨hnot, names, base, front, rest, hbase, hcandidates, later, hlater, hback', hinside⟩ :=
    hhiding
  have hroot := Path.plain_absolute h.wf.isAbsolute_cwd root
  rw [Bool.eq_false_iff]
  intro hfile
  have hback := FileTree.not_mem_of_isFile h.back hfile
  refine hnot ?_
  cases names using List.reverseRecOn with
  | nil =>
      have hpath : path ∈ candidates settings base := by
        rw [hcandidates]
        simp
      obtain ⟨names, hplain, hlength⟩ := exists_plain_of_isFile h hbase hslash hpath hfile
      refine clear_of_plain hroot hup hplain hback ?_
      rw [dropLast_dropCommon hlength]
      simp
  | append_singleton folder last =>
      obtain ⟨folder, name, hplain, hbelow⟩ :=
        exists_folder_of_candidates hbase hslash hcandidates
      obtain ⟨more, hmore, hother⟩ := hbelow later hlater
      exact clear_of_isInside h hroot hup hplain hback hother hmore hback' hinside

/-- Where no extension holds a slash and `..` is no vendor directory, regular trees agree on hiding
paths. -/
theorem agreeHiding_of_no_slash (h : SameBesideVendor settings root first second)
    (hslash : ∀ e ∈ settings.sourceExtensions, '/' ∉ e) (hup : Path.parent ∉ settings.vendorDirs) :
    AgreeHiding settings root first second := by
  intro path hhiding
  rw [isFile_eq_false_of_hiding h.left hslash hup hhiding,
    isFile_eq_false_of_hiding h.right hslash hup ((hiding_congr h.cwd_eq).mp hhiding)]

end ImportClosure.Analyzer
