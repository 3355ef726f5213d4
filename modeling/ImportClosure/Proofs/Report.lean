import ImportClosure.Proofs.FileTree.WellFormed
import ImportClosure.Proofs.Json.RoundTrip
import ImportClosure.Proofs.Text.Sorted
import ImportClosure.Report

/-!
# `ImportClosure.Proofs.Report`: what is reported, and when it cannot be

A report lists each path once, with its instant where instants are asked for (`mem_datedFiles`). It
fails for one reason only, a path that cannot be dated (`exists_collect_eq_error_iff`): one that
holds a NUL or whose instant cannot be written. Otherwise it is an `IsArrayLine`: one line that is
read as a list.
-/

set_option autoImplicit false

namespace ImportClosure.Report

variable {tree : FileTree} {paths : List Path} {path root : Path} {wanted : Bool}
  {file : SourceFile} {files : List SourceFile}

/-! ### Instants -/

/-- A file is inserted among the others. -/
theorem perm_insertByInstant (file : SourceFile) (files : List SourceFile) :
    (insertByInstant file files).Perm (file :: files) := by
  fun_induction insertByInstant file files with
  | case1 => rfl
  | case2 first rest hle => rfl
  | case3 first rest hgt ih => exact (ih.cons first).trans (List.Perm.swap file first rest)

/-- Files that are inserted one after the other are still the same ones. -/
theorem perm_foldr_insertByInstant (files : List SourceFile) :
    (files.foldr insertByInstant []).Perm files := by
  induction files with
  | nil => rfl
  | cons first rest ih => exact (perm_insertByInstant first _).trans (ih.cons first)

/-- The distinct paths with their instants, in order of these and then of the paths. -/
def datedFiles (tree : FileTree) (paths : List Path) : List SourceFile :=
  ((Text.sortedSet paths).map fun path => ⟨path, modified tree path⟩).foldr insertByInstant []

/-- The dated files are the distinct paths with their instants, in an order of their own. -/
theorem perm_datedFiles (tree : FileTree) (paths : List Path) :
    (datedFiles tree paths).Perm
      ((Text.sortedSet paths).map fun path => ⟨path, modified tree path⟩) :=
  perm_foldr_insertByInstant _

/-- The dated files are the paths with their instants. -/
theorem mem_datedFiles :
    file ∈ datedFiles tree paths ↔ file.path ∈ paths ∧ file.modified = modified tree file.path := by
  rw [(perm_datedFiles tree paths).mem_iff, List.mem_map]
  constructor
  · rintro ⟨path, hpath, rfl⟩
    exact ⟨Text.mem_sortedSet.mp hpath, rfl⟩
  · rintro ⟨hpath, hmodified⟩
    refine ⟨file.path, Text.mem_sortedSet.mpr hpath, ?_⟩
    rw [← hmodified]

/-- The paths of the dated files are the distinct paths. -/
theorem perm_map_path_datedFiles (tree : FileTree) (paths : List Path) :
    ((datedFiles tree paths).map (·.path)).Perm (Text.sortedSet paths) := by
  refine ((perm_datedFiles tree paths).map (·.path)).trans ?_
  rw [List.map_map]
  exact .of_eq (List.map_id _)

/-! ### What cannot be dated -/

/-- The path cannot be dated: it holds a NUL, or its instant cannot be written. -/
def IsOutOfRange (tree : FileTree) (path : Path) : Prop :=
  '\x00' ∈ path ∨ (modified tree path).isWritable = false

instance (tree : FileTree) (path : Path) : Decidable (IsOutOfRange tree path) :=
  inferInstanceAs (Decidable (_ ∨ _))

/-- Every other path is dated with its instant. -/
theorem date_eq (h : ¬IsOutOfRange tree path) :
    date tree path = .ok ⟨path, modified tree path⟩ := by
  obtain ⟨hnul, hinstant⟩ := not_or.mp h
  rw [date, if_neg hnul, if_pos (Bool.eq_true_of_not_eq_false hinstant)]

/-- A path is dated unless it cannot be. -/
theorem exists_date_eq_error_iff :
    (∃ error, date tree path = .error error) ↔ IsOutOfRange tree path := by
  constructor
  · rintro ⟨error, herror⟩
    by_contra hrange
    rw [date_eq hrange] at herror
    contradiction
  · intro hrange
    by_cases hnul : '\x00' ∈ path
    · exact ⟨.nul, by rw [date, if_pos hnul]⟩
    · have hinstant : ¬(modified tree path).isWritable = true := by
        simp [hrange.resolve_left hnul]
      exact ⟨_, by rw [date, if_neg hnul, if_neg hinstant]⟩

/-- Paths that can be dated are dated one after the other. -/
theorem mapM_date (h : ∀ path ∈ paths, ¬IsOutOfRange tree path) :
    paths.mapM (date tree) = .ok (paths.map fun path => ⟨path, modified tree path⟩) := by
  induction paths with
  | nil => rfl
  | cons first rest ih =>
      rw [List.mapM_cons, date_eq (h first List.mem_cons_self),
        ih fun path hpath => h path (List.mem_cons_of_mem first hpath)]
      rfl

/-- Where all paths are dated one after the other, each of them can be dated. -/
theorem not_isOutOfRange_of_mapM (h : paths.mapM (date tree) = .ok files) :
    ∀ path ∈ paths, ¬IsOutOfRange tree path := by
  induction paths generalizing files with
  | nil => simp
  | cons first rest ih =>
      rw [List.mapM_cons] at h
      cases hfirst : date tree first with
      | error error =>
          rw [hfirst] at h
          contradiction
      | ok file =>
          rw [hfirst] at h
          cases hrest : rest.mapM (date tree) with
          | error error =>
              rw [hrest] at h
              contradiction
          | ok others =>
              refine List.forall_mem_cons.mpr ⟨fun hrange => ?_, ih hrest⟩
              obtain ⟨error, herror⟩ := exists_date_eq_error_iff.mpr hrange
              rw [hfirst] at herror
              contradiction

/-- Where all paths can be dated, the dated files are collected. -/
theorem collect_eq (h : ∀ path ∈ withManifest tree paths root wanted, ¬IsOutOfRange tree path) :
    collect tree paths root wanted =
      .ok (datedFiles tree (withManifest tree paths root wanted)) := by
  rw [collect, mapM_date fun path hpath => h path (Text.mem_sortedSet.mp hpath)]
  rfl

/-- Files are collected only where all paths can be dated. -/
theorem not_isOutOfRange_of_collect (h : collect tree paths root wanted = .ok files) :
    ∀ path ∈ withManifest tree paths root wanted, ¬IsOutOfRange tree path := by
  rw [collect] at h
  cases hdates : (Text.sortedSet (withManifest tree paths root wanted)).mapM (date tree) with
  | error error =>
      rw [hdates] at h
      contradiction
  | ok dated =>
      intro path hpath
      exact not_isOutOfRange_of_mapM hdates path (Text.mem_sortedSet.mpr hpath)

/-- Files cannot be collected exactly if one of the paths cannot be dated. -/
theorem exists_collect_eq_error_iff :
    (∃ error, collect tree paths root wanted = .error error) ↔
      ∃ path ∈ withManifest tree paths root wanted, IsOutOfRange tree path := by
  constructor
  · rintro ⟨error, herror⟩
    by_contra hnone
    rw [collect_eq fun path hpath hrange => hnone ⟨path, hpath, hrange⟩] at herror
    contradiction
  · rintro ⟨path, hpath, hrange⟩
    cases hcollect : collect tree paths root wanted with
    | error error => exact ⟨error, rfl⟩
    | ok files => exact absurd hrange (not_isOutOfRange_of_collect hcollect path hpath)

/-- What is collected are the dated files. -/
theorem eq_datedFiles_of_collect (h : collect tree paths root wanted = .ok files) :
    files = datedFiles tree (withManifest tree paths root wanted) :=
  Except.ok.inj (h.symm.trans (collect_eq (not_isOutOfRange_of_collect h)))

/-- The time of the last change can be written as a date. A link has none of its own. -/
def IsDated : Node → Prop
  | .file _ nanos | .folder nanos _ => (Instant.ofNanos nanos).isWritable = true
  | .link _ => True

instance : DecidablePred IsDated
  | .file _ nanos => inferInstanceAs (Decidable ((Instant.ofNanos nanos).isWritable = true))
  | .folder nanos _ => inferInstanceAs (Decidable ((Instant.ofNanos nanos).isWritable = true))
  | .link _ => isTrue trivial

/-- The times of the last changes of all files and folders can be written as dates. -/
def Dated (tree : FileTree) : Prop := tree.top.All IsDated

instance (tree : FileTree) : Decidable (Dated tree) := inferInstanceAs (Decidable (tree.top.All _))

/-- Where all files and folders have dates, so does every path. -/
theorem Dated.isWritable_modified (h : Dated tree) (path : Path) :
    (modified tree path).isWritable = true := by
  have hepoch : Instant.epoch.isWritable = true := by decide
  rw [modified, FileTree.modified?]
  cases hfind : tree.find path with
  | error trouble => exact hepoch
  | ok found =>
      obtain ⟨place, node⟩ := found
      have hnode : IsDated node := (h.at? (FileTree.at?_of_find hfind)).self
      cases node with
      | link target => exact hepoch
      | file content nanos | folder nanos entries =>
          dsimp only
          split
          · exact hnode
          · exact hepoch

/-- Where all files and folders have dates, only paths that hold a NUL have none. -/
theorem Dated.not_isOutOfRange (h : Dated tree) (hnul : '\x00' ∉ path) :
    ¬IsOutOfRange tree path := by
  rintro (hmem | hinstant)
  · exact hnul hmem
  · rw [h.isWritable_modified path] at hinstant
    contradiction

/-! ### Lines -/

/-- The output is one line that is read as a list. -/
def IsArrayLine (output : Text) : Prop :=
  ∃ text items, output = text ++ ['\n'] ∧ '\n' ∉ text ∧ Json.read? text = some (.list items)

/-- A list of readable values is reported as one line. -/
theorem isArrayLine_line {items : List Json.Value} (h : ∀ value ∈ items, Json.Readable value) :
    IsArrayLine (line (.list items)) := by
  have hlist := Json.readable_list h
  exact ⟨Json.render (.list items), items, rfl, hlist.oneLine, hlist.read?_render⟩

/-- Paths are readable as texts. -/
theorem readable_of_mem_texts {paths : List Path} {value : Json.Value}
    (h : value ∈ paths.map Json.Value.text) : Json.Readable value := by
  obtain ⟨path, -, rfl⟩ := List.mem_map.mp h
  exact Json.readable_text path

/-- Paths are reported as one line. -/
theorem isArrayLine_ofPaths (paths : List Path) : IsArrayLine (ofPaths paths) :=
  isArrayLine_line fun _ => readable_of_mem_texts

/-- The object for a source file is readable. -/
theorem readable_fileValue (file : SourceFile) : Json.Readable (fileValue file) := by
  refine Json.readable_object fun member hmember => ?_
  simp only [List.mem_cons, List.not_mem_nil, or_false] at hmember
  rcases hmember with rfl | rfl
  · exact Json.readable_text file.path
  · exact Json.readable_text file.modified.text

/-- Source files are reported as one line. -/
theorem isArrayLine_ofFiles (files : List SourceFile) : IsArrayLine (ofFiles files) := by
  refine isArrayLine_line fun value hvalue => ?_
  obtain ⟨file, -, rfl⟩ := List.mem_map.mp hvalue
  exact readable_fileValue file

/-! ### What a line reports -/

/-- The path that an item of a report names: the text that it is, or its member `path`. -/
def itemPath? : Json.Value → Option Path
  | .text path => some path
  | item => (item.member? "path".toList).bind Json.Value.asText?

/-- The paths that a line reports, in its order. -/
def listed? (output : Text) : Option (List Path) := do
  let items ← (← Json.read? output).asList?
  items.mapM itemPath?

/-- A line of readable items is read back. -/
theorem read?_line {items : List Json.Value} (hitems : ∀ item ∈ items, Json.Readable item) :
    Json.read? (line (.list items)) = some (.list items) :=
  (Json.readable_list hitems).read?_append rfl

/-- A line reports what its items name. -/
theorem listed?_line {items : List Json.Value} {paths : List Path}
    (hitems : ∀ item ∈ items, Json.Readable item) (hpaths : items.mapM itemPath? = some paths) :
    listed? (line (.list items)) = some paths := by
  rw [listed?, read?_line hitems]
  exact hpaths

/-- The line for paths reports each of them. -/
theorem listed?_ofPaths (paths : List Path) :
    listed? (ofPaths paths) = some (Text.sortedSet paths) := by
  refine listed?_line (fun _ => readable_of_mem_texts) ?_
  rw [List.mapM_map]
  exact (List.mapM_pure (m := Option) (f := id)).trans (congrArg some (List.map_id _))

/-- The line for source files reports the path of each. -/
theorem listed?_ofFiles (files : List SourceFile) :
    listed? (ofFiles files) = some (files.map (·.path)) := by
  refine listed?_line (fun item hitem => ?_) ?_
  · obtain ⟨file, -, rfl⟩ := List.mem_map.mp hitem
    exact readable_fileValue file
  · rw [List.mapM_map]
    exact List.mapM_pure (m := Option) (f := SourceFile.path)

end ImportClosure.Report
