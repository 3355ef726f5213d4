import ImportClosure.Proofs.Report

/-!
# `ImportClosure.Proofs.Report.Order`: the order of dated files

The paths of a report are put in order first and the dated files by their instants then, where
files of one instant keep their order. So the instant counts before the path
(`pairwise_datedFiles`), and a dated report lists the paths in the order of the other one exactly
if the instants never fall along the paths: `collect_ordered`. A file that is older than one with a
smaller path comes too early (`exists_collect_out_of_order`).
-/

set_option autoImplicit false

namespace ImportClosure.Report

variable {tree : FileTree} {paths : List Path} {file : SourceFile} {files : List SourceFile}

/-- The first file is the older one, or of the same instant with a smaller path. -/
def Precedes (first second : SourceFile) : Prop :=
  first.modified.micros < second.modified.micros ∨
    first.modified = second.modified ∧ Text.Before first.path second.path

/-- A file precedes none that is older. -/
theorem Precedes.micros_le {first second : SourceFile} (h : Precedes first second) :
    first.modified.micros ≤ second.modified.micros := by
  rcases h with hlt | ⟨heq, -⟩
  · exact Int.le_of_lt hlt
  · rw [heq]

/-! ### Insertion -/

/-- A file is inserted in order, if its path is smaller than those of the others. -/
theorem pairwise_insertByInstant (h : files.Pairwise Precedes)
    (hpath : ∀ other ∈ files, Text.Before file.path other.path) :
    (insertByInstant file files).Pairwise Precedes := by
  fun_induction insertByInstant file files with
  | case1 => exact List.pairwise_singleton Precedes file
  | case2 first rest hle =>
      refine List.pairwise_cons.mpr ⟨fun other hother => ?_, h⟩
      have hother_ge : file.modified.micros ≤ other.modified.micros := by
        rcases List.mem_cons.mp hother with rfl | hrest
        · exact hle
        · exact Int.le_trans hle ((List.pairwise_cons.mp h).1 other hrest).micros_le
      rcases Int.lt_or_eq_of_le hother_ge with hlt | heq
      · exact Or.inl hlt
      · exact Or.inr ⟨congrArg Instant.mk heq, hpath other hother⟩
  | case3 first rest hgt ih =>
      obtain ⟨hfirst, hrest⟩ := List.pairwise_cons.mp h
      refine List.pairwise_cons.mpr ⟨fun other hother => ?_,
        ih hrest fun other hother => hpath other (List.mem_cons_of_mem first hother)⟩
      rcases List.mem_cons.mp ((perm_insertByInstant file rest).mem_iff.mp hother) with rfl | hmem
      · exact Or.inl (Int.not_le.mp hgt)
      · exact hfirst other hmem

/-- Files in order of their paths that are inserted one after the other, the last one first, are in
order of their instants, and those of one instant still in order of their paths. -/
theorem pairwise_foldr_insertByInstant
    (h : files.Pairwise fun first second => Text.Before first.path second.path) :
    (files.foldr insertByInstant []).Pairwise Precedes := by
  induction files with
  | nil => exact List.Pairwise.nil
  | cons first rest ih =>
      obtain ⟨hfirst, hrest⟩ := List.pairwise_cons.mp h
      exact pairwise_insertByInstant (ih hrest) fun other hother =>
        hfirst other ((perm_foldr_insertByInstant rest).mem_iff.mp hother)

/-- The dated files are in order of their instants, and those of one instant in order of their
paths. -/
theorem pairwise_datedFiles (tree : FileTree) (paths : List Path) :
    (datedFiles tree paths).Pairwise Precedes :=
  pairwise_foldr_insertByInstant (List.pairwise_map.mpr (Text.pairwise_sortedSet paths))

/-! ### The order of the paths -/

/-- Of two paths the greater one is never of an earlier instant. -/
def AgesAlong (tree : FileTree) (paths : List Path) : Prop :=
  ∀ p ∈ paths, ∀ q ∈ paths,
    Text.Before p q → (modified tree p).micros ≤ (modified tree q).micros

/-- One of the files comes before the other, by their paths and by their instants. -/
def OrderedAlike (first second : SourceFile) : Prop :=
  (Text.Before first.path second.path ∧ Precedes first second) ∨
    (Text.Before second.path first.path ∧ Precedes second first)

instance : Std.Symm OrderedAlike := ⟨fun _ _ => Or.symm⟩

/-- If the dated files are in order of their paths, the one with the smaller path precedes the
other. -/
theorem precedes_of_before (h : ((datedFiles tree paths).map (·.path)).Pairwise Text.Before)
    {first second : SourceFile} (hfirst : first ∈ datedFiles tree paths)
    (hsecond : second ∈ datedFiles tree paths) (hbefore : Text.Before first.path second.path) :
    Precedes first second := by
  have halike : (datedFiles tree paths).Pairwise OrderedAlike :=
    ((List.pairwise_map.mp h).and (pairwise_datedFiles tree paths)).imp Or.inl
  have hne : first ≠ second := fun heq => hbefore.2 (congrArg SourceFile.path heq)
  rcases halike.forall hfirst hsecond hne with ⟨-, hprecedes⟩ | ⟨hafter, -⟩
  · exact hprecedes
  · exact absurd (Text.le_antisymm hbefore.1 hafter.1) hbefore.2

/-- The dated files are in order of their paths exactly if the instants never fall along the
paths. -/
theorem pairwise_path_datedFiles_iff :
    ((datedFiles tree paths).map (·.path)).Pairwise Text.Before ↔ AgesAlong tree paths := by
  constructor
  · intro h p hp q hq hbefore
    have hfile : ∀ path ∈ paths, ⟨path, modified tree path⟩ ∈ datedFiles tree paths :=
      fun path hpath => mem_datedFiles.mpr ⟨hpath, rfl⟩
    exact (precedes_of_before h (hfile p hp) (hfile q hq) hbefore).micros_le
  · intro h
    rw [List.pairwise_map]
    refine (pairwise_datedFiles tree paths).imp_of_mem fun {first second} hfirst hsecond hprec => ?_
    obtain ⟨hp, hfirstTime⟩ := mem_datedFiles.mp hfirst
    obtain ⟨hq, hsecondTime⟩ := mem_datedFiles.mp hsecond
    rcases hprec with hlt | ⟨-, hbefore⟩
    · -- The second file is later, so that its path is neither the same nor smaller.
      rw [hfirstTime, hsecondTime] at hlt
      have hne : first.path ≠ second.path := fun heq => by
        rw [heq] at hlt
        exact Int.lt_irrefl _ hlt
      refine ⟨(Text.le_total _ _).resolve_right fun hle => ?_, hne⟩
      exact Int.not_le.mpr hlt (h _ hq _ hp ⟨hle, hne.symm⟩)
    · exact hbefore

/-- A dated report lists the paths in the order of the other one exactly if its files are in order
of their paths. -/
theorem listed?_datedFiles_iff :
    listed? (ofFiles (datedFiles tree paths)) = listed? (ofPaths paths) ↔
      ((datedFiles tree paths).map (·.path)).Pairwise Text.Before := by
  rw [listed?_ofFiles, listed?_ofPaths, Option.some.injEq]
  have hsorted := Text.pairwise_sortedSet paths
  constructor
  · intro h
    rwa [h]
  · intro h
    exact (perm_map_path_datedFiles tree paths).eq_of_pairwise
      (fun _ _ _ _ hst hts => Text.le_antisymm hst.1 hts.1) h hsorted

/-- Files cannot be collected if one of the paths cannot be dated. Otherwise they are collected in
order of their instants, and those of one instant in order of their paths. They are in order of
their paths, and are reported in the order of a report without instants, exactly if the instants
never fall along the paths. -/
theorem collect_ordered (tree : FileTree) (paths : List Path) (root : Path) (wanted : Bool) :
    ((∃ path ∈ withManifest tree paths root wanted, IsOutOfRange tree path) ∧
        ∃ error, collect tree paths root wanted = .error error) ∨
      ∃ files, collect tree paths root wanted = .ok files ∧ files.Pairwise Precedes ∧
        ((files.map (·.path)).Pairwise Text.Before ↔
          AgesAlong tree (withManifest tree paths root wanted)) ∧
        (listed? (ofFiles files) = listed? (ofPaths (withManifest tree paths root wanted)) ↔
          AgesAlong tree (withManifest tree paths root wanted)) := by
  cases hcollect : collect tree paths root wanted with
  | error error =>
      exact Or.inl ⟨exists_collect_eq_error_iff.mp ⟨error, hcollect⟩, error, rfl⟩
  | ok files =>
      obtain rfl := eq_datedFiles_of_collect hcollect
      exact Or.inr ⟨_, rfl, pairwise_datedFiles tree _, pairwise_path_datedFiles_iff,
        listed?_datedFiles_iff.trans pairwise_path_datedFiles_iff⟩

/-- A project whose first module is newer than its second. -/
def newerFirst : FileTree where
  top := .folder 0 [("p".toList, .folder 0
    [("a.ts".toList, .file [] 2000000000), ("b.ts".toList, .file [] 1000000000)])]
  cwd := "/p".toList

/-- The newer module is collected after the other one, although its path is the smaller. -/
theorem exists_collect_out_of_order :
    collect newerFirst ["/p/a.ts".toList, "/p/b.ts".toList] "/p".toList false
        = .ok [⟨"/p/b.ts".toList, ⟨1000000⟩⟩, ⟨"/p/a.ts".toList, ⟨2000000⟩⟩] ∧
      ¬["/p/b.ts".toList, "/p/a.ts".toList].Pairwise Text.Before := by
  constructor
  · decide +kernel
  · intro h
    exact absurd (List.rel_of_pairwise_cons h (List.mem_singleton.mpr rfl)).1 (by decide)

end ImportClosure.Report
