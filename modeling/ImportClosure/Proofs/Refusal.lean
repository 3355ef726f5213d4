import ImportClosure.Proofs.Artifact
import ImportClosure.Proofs.Entry
import ImportClosure.Proofs.Path.Below

/-!
# `ImportClosure.Proofs.Refusal`: why an entry is refused

The checks of an entry come one after another and read the way to it as a text. `IsSource` says in
terms of paths what the middle ones ask for: an existing file of the sources. A root and an entry
that are not blank pass these checks exactly if the entry is a source (`resolve_of_isSource`,
`exists_notFound_of_not_isSource`), and then its extension decides.

`resolve_outcome` gives the condition of each outcome. The checks let the way `..` pass. That is the
way to the entry exactly if the root is a name right below it, as if the entry were a directory;
`exists_resolve_above_root` is such an entry.
-/

set_option autoImplicit false

namespace ImportClosure.Entry

variable {tree : FileTree} {settings : Settings} {root entry : Path}

/-- The entry is missing, or not among the sources. -/
def Refusal.isNotFound : Refusal → Bool
  | notFound _ | outside _ => true
  | blankRoot | blankEntry | unrecognized _ => false

/-- The entry is an existing file. The way to it from the root does not leave the root, or is `..`,
and crosses no vendor directory. -/
structure IsSource (tree : FileTree) (settings : Settings) (root entry : Path) : Prop where
  isFile : tree.isFile (entryOf tree root entry) = true
  stays : Path.leaves (Path.relative tree.cwd (entryOf tree root entry) (rootOf tree root)) = true →
    Path.relative tree.cwd (entryOf tree root entry) (rootOf tree root) = Path.parent
  folders : ∀ folder ∈ (Text.splitOn '/'
      (Path.relative tree.cwd (entryOf tree root entry) (rootOf tree root))).dropLast,
    folder ∉ settings.vendorDirs

/-- What is asked of the text of the way is that the entry is a source. -/
theorem isSource_iff (hcwd : Path.isAbsolute tree.cwd = true) :
    IsSource tree settings root entry ↔ tree.isFile (entryOf tree root entry) = true ∧
      (Text.startsWith ['.', '.', '/'] (wayTo tree (rootOf tree root) (entryOf tree root entry)) ||
        isVendored settings (wayTo tree (rootOf tree root) (entryOf tree root entry))) = false := by
  rw [wayTo_entryOf hcwd, Bool.or_eq_false_iff,
    isVendored_eq_false_iff (not_mem_way hcwd root entry)]
  constructor
  · intro h
    refine ⟨h.isFile, ?_, h.folders⟩
    by_contra hstarts
    rw [Bool.not_eq_false] at hstarts
    -- A way that begins with `../` leaves, and is longer than `..`.
    have hleaves := h.stays (by rw [Path.leaves, hstarts, Bool.or_true])
    rw [hleaves] at hstarts
    contradiction
  · rintro ⟨hfile, hstarts, hfolders⟩
    refine ⟨hfile, fun hleaves => ?_, hfolders⟩
    rwa [Path.leaves, hstarts, Bool.or_false, decide_eq_true_eq] at hleaves

/-! ### The outcomes -/

/-- An entry that is no source is not found. -/
theorem exists_notFound_of_not_isSource (hcwd : Path.isAbsolute tree.cwd = true)
    (hroot : Text.allBlank root = false) (hentry : Text.allBlank entry = false)
    (h : ¬IsSource tree settings root entry) :
    ∃ refusal : Refusal, (resolve tree settings root entry).value = .error refusal ∧
      refusal.isNotFound = true := by
  rw [resolve_of_not_blank hroot hentry]
  by_cases hfile : tree.isFile (entryOf tree root entry) = true
  · rw [isSource_iff hcwd, not_and, Bool.not_eq_false] at h
    rw [if_neg (by simp [hfile]), if_pos (h hfile)]
    exact ⟨_, rfl, rfl⟩
  · rw [if_pos (by simpa using hfile)]
    exact ⟨_, rfl, rfl⟩

/-- A source is accepted if its extension is recognized. -/
theorem resolve_of_isSource (hcwd : Path.isAbsolute tree.cwd = true)
    (hroot : Text.allBlank root = false) (hentry : Text.allBlank entry = false)
    (h : IsSource tree settings root entry) :
    (resolve tree settings root entry).value =
      if classify settings (entryOf tree root entry) = none then
        .error (.unrecognized (entryOf tree root entry))
      else .ok ⟨rootOf tree root, entryOf tree root entry⟩ := by
  obtain ⟨hfile, hway⟩ := (isSource_iff hcwd).mp h
  rw [resolve_of_not_blank hroot hentry, if_neg (by simp [hfile]), if_neg (by simp [hway])]

/-- The outcomes for a root and an entry. The arguments are at fault exactly if one of them is
blank. Otherwise the entry is not found exactly if it is no source, it is not recognized exactly if
it is a source of neither kind, and it is accepted exactly if it is a source of one. The way to a
source is `..` exactly if the root is a name right below it. -/
theorem resolve_outcome (settings : Settings) (hcwd : Path.isAbsolute tree.cwd = true)
    (root entry : Path) :
    ((∃ refusal : Refusal, (resolve tree settings root entry).value = .error refusal ∧
        refusal.isMissingArgument = true) ↔
      Text.allBlank root = true ∨ Text.allBlank entry = true) ∧
    (Text.allBlank root = false → Text.allBlank entry = false →
      ((∃ refusal : Refusal, (resolve tree settings root entry).value = .error refusal ∧
          refusal.isNotFound = true) ↔
        ¬IsSource tree settings root entry) ∧
      (∀ path, (resolve tree settings root entry).value = .error (.unrecognized path) ↔
        path = entryOf tree root entry ∧ IsSource tree settings root entry ∧
          classify settings (entryOf tree root entry) = none) ∧
      ∀ accepted, (resolve tree settings root entry).value = .ok accepted ↔
        accepted = ⟨rootOf tree root, entryOf tree root entry⟩ ∧
          IsSource tree settings root entry ∧
            (classify settings (entryOf tree root entry)).isSome) ∧
    (Path.relative tree.cwd (entryOf tree root entry) (rootOf tree root) = Path.parent ↔
      ∃ name, Path.segments (Path.absolute tree.cwd (rootOf tree root))
        = Path.segments (Path.absolute tree.cwd (entryOf tree root entry)) ++ [name]) := by
  refine ⟨⟨?_, ?_⟩, ?_, Path.relative_eq_parent_iff hcwd⟩
  · rintro ⟨refusal, hvalue, hmissing⟩
    by_contra hblank
    simp only [not_or, Bool.not_eq_true] at hblank
    rw [isMissingArgument_of_resolve hblank.1 hblank.2 hvalue] at hmissing
    contradiction
  · intro hblank
    obtain ⟨refusal, hmissing, hvalue⟩ := isMissingArgument_of_allBlank tree settings hblank
    exact ⟨refusal, hvalue, hmissing⟩
  intro hroot hentry
  by_cases hsource : IsSource tree settings root entry
  · rw [resolve_of_isSource hcwd hroot hentry hsource]
    cases hkind : classify settings (entryOf tree root entry) with
    | none => simp [hsource, Refusal.isNotFound, @eq_comm _ (entryOf tree root entry)]
    | some kind => simp [hsource, @eq_comm Accepted ⟨rootOf tree root, entryOf tree root entry⟩]
  · obtain ⟨refusal, hvalue, hnot⟩ := exists_notFound_of_not_isSource hcwd hroot hentry hsource
    have hother : ∀ path, refusal ≠ .unrecognized path := by
      rintro path rfl
      contradiction
    simp [hvalue, hsource, hnot, hother]

/-- A project with a module and a text file. -/
def moduleAndText : FileTree where
  top := .folder 0 [("p".toList, .folder 0
    [("f.ts".toList, .file [] 0), ("n.txt".toList, .file [] 0)])]
  cwd := "/p".toList

/-- The text file is a source, by way of a folder that does not exist, and is not recognized. -/
theorem resolve_outcome_moduleAndText :
    Path.isAbsolute moduleAndText.cwd = true ∧
      IsSource moduleAndText {} Path.here "b/../n.txt".toList ∧
      (resolve moduleAndText {} Path.here "b/../n.txt".toList).value
        = .error (.unrecognized "/p/n.txt".toList) := by
  have hcwd : Path.isAbsolute moduleAndText.cwd = true := by decide
  have hsource : IsSource moduleAndText {} Path.here "b/../n.txt".toList :=
    ⟨by decide +kernel, by decide +kernel, by decide +kernel⟩
  have houtcomes := (resolve_outcome {} hcwd Path.here "b/../n.txt".toList).2.1 rfl (by decide)
  refine ⟨hcwd, hsource, (houtcomes.2.1 _).mpr ⟨?_, hsource, ?_⟩⟩
  · decide +kernel
  · decide +kernel

/-- For a root that would lie below the module, the module is accepted, and the way to it is
`..`. -/
theorem exists_resolve_above_root :
    (resolve moduleAndText {} "/p/f.ts/sub".toList "..".toList).value
        = .ok ⟨"/p/f.ts/sub".toList, "/p/f.ts".toList⟩ ∧
      Path.relative moduleAndText.cwd "/p/f.ts".toList "/p/f.ts/sub".toList = Path.parent := by
  decide +kernel

end ImportClosure.Entry
