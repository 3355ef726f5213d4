import ImportClosure.Entry
import ImportClosure.Proofs.Path.Relative

/-!
# `ImportClosure.Proofs.Entry`: which entries are accepted

`resolve_of_not_blank` is the outcome for arguments that are not blank, with the texts that a run
works with. `resolve_eq_ok_iff` lists what holds of an accepted entry: it is the given one, read
from the given root, an existing file whose way from the root does not begin with `../` and crosses
no vendor directory, and it is recognized. Neither it nor its root holds a backslash.
-/

set_option autoImplicit false

namespace ImportClosure.Entry

variable {tree : FileTree} {settings : Settings} {root entry : Path} {accepted : Accepted}

/-- The root that a run works with. -/
def rootOf (tree : FileTree) (root : Path) : Path := Path.toSlashes (Path.absolute tree.cwd root)

/-- The entry that a run works with, if it is accepted. -/
def entryOf (tree : FileTree) (root entry : Path) : Path :=
  Path.toSlashes (Path.join (rootOf tree root) entry)

/-- The way from the root of a run to a path, with slashes only. -/
def wayTo (tree : FileTree) (root path : Path) : Path :=
  Text.replace '\\' '/' (Path.relative tree.cwd path root)

/-- The outcome for arguments that are not blank. -/
theorem resolve_of_not_blank (hroot : Text.allBlank root = false)
    (hentry : Text.allBlank entry = false) :
    (resolve tree settings root entry).value =
      if tree.isFile (entryOf tree root entry) = false then
        .error (.notFound (entryOf tree root entry))
      else if Text.startsWith ['.', '.', '/']
            (wayTo tree (rootOf tree root) (entryOf tree root entry)) ||
          isVendored settings (wayTo tree (rootOf tree root) (entryOf tree root entry)) then
        .error (.outside (entryOf tree root entry))
      else if classify settings (entryOf tree root entry) = none then
        .error (.unrecognized (entryOf tree root entry))
      else .ok ⟨rootOf tree root, entryOf tree root entry⟩ := by
  simp only [resolve, hroot, hentry, Bool.false_eq_true, if_false, Bool.not_eq_true']
  rw [← rootOf, ← entryOf, ← wayTo]
  split
  · rfl
  split
  · rfl
  split <;> rfl

/-- The accepted entries. -/
theorem resolve_eq_ok_iff :
    (resolve tree settings root entry).value = .ok accepted ↔
      Text.allBlank root = false ∧ Text.allBlank entry = false ∧
      accepted = ⟨rootOf tree root, entryOf tree root entry⟩ ∧
      tree.isFile (entryOf tree root entry) = true ∧
      Text.startsWith ['.', '.', '/'] (wayTo tree (rootOf tree root) (entryOf tree root entry))
        = false ∧
      isVendored settings (wayTo tree (rootOf tree root) (entryOf tree root entry)) = false ∧
      (classify settings (entryOf tree root entry)).isSome := by
  cases hroot : Text.allBlank root with
  | true => simp [resolve, hroot]
  | false =>
      cases hentry : Text.allBlank entry with
      | true => simp [resolve, hroot, hentry]
      | false =>
          rw [resolve_of_not_blank hroot hentry]
          cases hfile : tree.isFile (entryOf tree root entry) with
          | false => simp
          | true =>
              cases hleaves : Text.startsWith ['.', '.', '/']
                  (wayTo tree (rootOf tree root) (entryOf tree root entry)) with
              | true => simp
              | false =>
                  cases hvendored : isVendored settings
                      (wayTo tree (rootOf tree root) (entryOf tree root entry)) with
                  | true => simp
                  | false =>
                      cases hkind : classify settings (entryOf tree root entry) with
                      | none => simp
                      | some kind => simp [eq_comm]

/-- Blank arguments are refused in the same way in all trees. -/
theorem resolve_congr_of_allBlank (first second : FileTree)
    (h : Text.allBlank root = true ∨ Text.allBlank entry = true) :
    (resolve first settings root entry).value = (resolve second settings root entry).value := by
  unfold resolve
  cases hroot : Text.allBlank root with
  | true => rfl
  | false =>
      rw [hroot] at h
      simp [h.resolve_left Bool.false_ne_true]

/-- The root of a run depends on the working directory only. -/
theorem rootOf_congr {first second : FileTree} (hcwd : first.cwd = second.cwd) (root : Path) :
    rootOf first root = rootOf second root := by
  rw [rootOf, rootOf, hcwd]

/-- What is accepted in one tree is accepted in another, if the entry is a file in both. All else
depends on texts alone. -/
theorem accepts_of_isFile {first second : FileTree} (hcwd : first.cwd = second.cwd)
    (hfile : first.isFile (entryOf first root entry) = second.isFile (entryOf first root entry))
    (hresolve : (resolve first settings root entry).value = .ok accepted) :
    (resolve second settings root entry).value = .ok accepted := by
  obtain ⟨hroot', hentry', rfl, hisFile, hstays, hvendored, hsome⟩ := resolve_eq_ok_iff.mp hresolve
  have hrootOf := rootOf_congr hcwd root
  have hentryOf : entryOf first root entry = entryOf second root entry := by
    rw [entryOf, entryOf, hrootOf]
  rw [hfile] at hisFile
  rw [wayTo, hcwd] at hstays hvendored
  rw [hrootOf, hentryOf] at hstays hvendored
  rw [hentryOf] at hisFile hsome
  rw [hrootOf, hentryOf]
  exact resolve_eq_ok_iff.mpr ⟨hroot', hentry', rfl, hisFile, hstays, hvendored, hsome⟩

/-- A blank argument is at fault. -/
theorem isMissingArgument_of_allBlank (tree : FileTree) (settings : Settings)
    (h : Text.allBlank root = true ∨ Text.allBlank entry = true) :
    ∃ refusal : Refusal, refusal.isMissingArgument = true ∧
      (resolve tree settings root entry).value = .error refusal := by
  unfold resolve
  cases hroot : Text.allBlank root with
  | true => exact ⟨.blankRoot, rfl, rfl⟩
  | false =>
      have hentry : Text.allBlank entry = true := by simpa [hroot] using h
      exact ⟨.blankEntry, rfl, by simp [hentry]⟩

/-- Arguments that are not blank are not at fault. -/
theorem isMissingArgument_of_resolve {refusal : Refusal} (hroot : Text.allBlank root = false)
    (hentry : Text.allBlank entry = false)
    (h : (resolve tree settings root entry).value = .error refusal) :
    refusal.isMissingArgument = false := by
  rw [resolve_of_not_blank hroot hentry] at h
  split at h
  · rw [← Except.error.inj h]
    rfl
  split at h
  · rw [← Except.error.inj h]
    rfl
  split at h
  · rw [← Except.error.inj h]
    rfl
  · simp at h

/-- The root of a run is absolute. -/
theorem isAbsolute_rootOf (hcwd : Path.isAbsolute tree.cwd = true) (root : Path) :
    Path.isAbsolute (rootOf tree root) = true :=
  Path.isAbsolute_toSlashes (Path.isAbsolute_absolute hcwd root)

/-- The entry of a run is absolute. -/
theorem isAbsolute_entryOf (hcwd : Path.isAbsolute tree.cwd = true) (root entry : Path) :
    Path.isAbsolute (entryOf tree root entry) = true :=
  Path.isAbsolute_toSlashes (Path.isAbsolute_join (isAbsolute_rootOf hcwd root) entry)

/-- Where no backslash occurs, the root of a run is the given one, made absolute. -/
theorem rootOf_eq (hcwd : '\\' ∉ tree.cwd) (hroot : '\\' ∉ root) :
    rootOf tree root = Path.absolute tree.cwd root := by
  have hclean := Path.not_mem_absolute hcwd hroot (by decide) (by decide)
  rw [rootOf, Path.toSlashes_of_not_mem hclean, Path.normalize_absolute]

/-- An entry without backslashes is joined to the root of the run and normalized. -/
theorem entryOf_eq (hentry : '\\' ∉ entry) :
    entryOf tree root entry = Path.normalize (Path.join (rootOf tree root) entry) :=
  Path.toSlashes_of_not_mem (Path.not_mem_join (Path.not_mem_toSlashes _) hentry (by decide))

/-- The way to the entry holds no backslash, not even if the working directory does. -/
theorem not_mem_way (hcwd : Path.isAbsolute tree.cwd = true) (root entry : Path) :
    '\\' ∉ Path.relative tree.cwd (entryOf tree root entry) (rootOf tree root) := by
  rw [Path.relative_congr_cwd (isAbsolute_entryOf hcwd root entry) (isAbsolute_rootOf hcwd root)
    tree.cwd []]
  exact Path.not_mem_relative List.not_mem_nil (Path.not_mem_toSlashes _) (by decide) (by decide)

/-- The way to the entry is that from the root of the run. -/
theorem wayTo_entryOf (hcwd : Path.isAbsolute tree.cwd = true) :
    wayTo tree (rootOf tree root) (entryOf tree root entry)
      = Path.relative tree.cwd (entryOf tree root entry) (rootOf tree root) :=
  Text.replace_of_not_mem (not_mem_way hcwd root entry)

/-- Where no backslash occurs, the way to a path is that from the given root. -/
theorem wayTo_eq {path : Path} (hcwd : '\\' ∉ tree.cwd)
    (habs : Path.isAbsolute tree.cwd = true) (hroot : '\\' ∉ root) (hpath : '\\' ∉ path) :
    wayTo tree (rootOf tree root) path = Path.relative tree.cwd path root := by
  have hclean : '\\' ∉ Path.relative tree.cwd path root :=
    Path.not_mem_relative hcwd hpath (by decide) (by decide)
  rw [wayTo, rootOf_eq hcwd hroot, Path.relative_absolute habs, Text.replace_of_not_mem hclean]

end ImportClosure.Entry
