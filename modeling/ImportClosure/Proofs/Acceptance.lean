import ImportClosure.Proofs.Entry
import ImportClosure.Proofs.Path.Separators

/-!
# `ImportClosure.Proofs.Acceptance`: accepting an entry again

An accepted entry and its root are absolute and have no backslash. To resolve them once more is
to normalize them (`eq_of_resolve_accepted`), so that they are accepted as they are exactly if
both are normal. `resolve_accepted` says this and when they are normal: the root exactly if the
backslashes of the given one, made absolute, separate names, and the entry exactly if those of
the given one, joined to the root, do.

A segment `..` between backslashes comes to light after the path has been normalized. The entry
is then another one when it is resolved again (`exists_resolve_not_normal`).
-/

set_option autoImplicit false

namespace ImportClosure.Entry

variable {tree : FileTree} {settings : Settings} {root entry : Path} {accepted : Accepted}

/-- An absolute path is not blank. -/
theorem allBlank_of_isAbsolute {path : Path} (h : Path.isAbsolute path = true) :
    Text.allBlank path = false := by
  cases path with
  | nil => simp [Path.isAbsolute, Text.startsWith] at h
  | cons c rest =>
      have hc : '/' = c := by simpa [Path.isAbsolute, Text.startsWith] using h
      subst hc
      rfl

/-- An absolute root without backslashes is only normalized. -/
theorem rootOf_of_isAbsolute (habs : Path.isAbsolute root = true) (hback : '\\' ∉ root) :
    rootOf tree root = Path.normalize root := by
  have hnormal := Path.not_mem_normalize hback (by decide) (by decide)
  rw [rootOf, Path.absolute_of_isAbsolute tree.cwd habs, Path.toSlashes_of_not_mem hnormal,
    Path.normalize_idem]

/-- An absolute entry without backslashes is only normalized, whatever the root is. -/
theorem entryOf_of_isAbsolute (habs : Path.isAbsolute entry = true) (hback : '\\' ∉ entry) :
    entryOf tree root entry = Path.normalize entry := by
  rw [entryOf_eq hback, Path.join, if_pos habs]

/-- What is accepted when the accepted root and entry are resolved again is their normal form. -/
theorem eq_of_resolve_accepted (hcwd : Path.isAbsolute tree.cwd = true) {again : Accepted}
    (h : (resolve tree settings root entry).value = .ok accepted)
    (hagain : (resolve tree settings accepted.root accepted.entry).value = .ok again) :
    again = ⟨Path.normalize accepted.root, Path.normalize accepted.entry⟩ := by
  obtain ⟨-, -, rfl, -⟩ := resolve_eq_ok_iff.mp h
  obtain ⟨-, -, rfl, -⟩ := resolve_eq_ok_iff.mp hagain
  rw [rootOf_of_isAbsolute (isAbsolute_rootOf hcwd root) (Path.not_mem_toSlashes _),
    entryOf_of_isAbsolute (isAbsolute_entryOf hcwd root entry) (Path.not_mem_toSlashes _)]

/-- If the accepted root and entry are normal, they are accepted again as they are. -/
theorem resolve_of_normalize_eq (hcwd : Path.isAbsolute tree.cwd = true)
    (h : (resolve tree settings root entry).value = .ok accepted)
    (hroot : Path.normalize accepted.root = accepted.root)
    (hentry : Path.normalize accepted.entry = accepted.entry) :
    (resolve tree settings accepted.root accepted.entry).value = .ok accepted := by
  obtain ⟨-, -, rfl, hfile, hstays, hvendored, hkind⟩ := resolve_eq_ok_iff.mp h
  have habs := isAbsolute_rootOf hcwd root
  have hentryAbs := isAbsolute_entryOf hcwd root entry
  have hrootOf : rootOf tree (rootOf tree root) = rootOf tree root := by
    rw [rootOf_of_isAbsolute habs (Path.not_mem_toSlashes _), hroot]
  have hentryOf :
      entryOf tree (rootOf tree root) (entryOf tree root entry) = entryOf tree root entry := by
    rw [entryOf_of_isAbsolute hentryAbs (Path.not_mem_toSlashes _), hentry]
  -- All that is asked of the texts of a run has been asked of these two before.
  rw [← hrootOf, ← hentryOf] at hstays hvendored
  rw [← hentryOf] at hfile hkind
  exact resolve_eq_ok_iff.mpr ⟨allBlank_of_isAbsolute habs, allBlank_of_isAbsolute hentryAbs,
    by rw [hrootOf, hentryOf], hfile, hstays, hvendored, hkind⟩

/-- The texts of an accepted entry. It and its root are absolute and have no backslash. The root
is normal exactly if the backslashes of the given one, made absolute, separate names, and the
entry exactly if those of the given one, joined to the root, do. They are accepted again as they
are exactly if both are normal. -/
theorem resolve_accepted (hcwd : Path.isAbsolute tree.cwd = true)
    (h : (resolve tree settings root entry).value = .ok accepted) :
    (Path.isAbsolute accepted.root = true ∧ '\\' ∉ accepted.root) ∧
      (Path.isAbsolute accepted.entry = true ∧ '\\' ∉ accepted.entry) ∧
      (Path.normalize accepted.root = accepted.root ↔
        Path.SeparatesNames (Path.absolute tree.cwd root)) ∧
      (Path.normalize accepted.entry = accepted.entry ↔
        Path.SeparatesNames (Path.join accepted.root entry)) ∧
      ((resolve tree settings accepted.root accepted.entry).value = .ok accepted ↔
        Path.normalize accepted.root = accepted.root ∧
          Path.normalize accepted.entry = accepted.entry) := by
  have hagain : (resolve tree settings accepted.root accepted.entry).value = .ok accepted ↔
      Path.normalize accepted.root = accepted.root ∧
        Path.normalize accepted.entry = accepted.entry := by
    constructor
    · intro hagain
      have heq := eq_of_resolve_accepted hcwd h hagain
      exact ⟨(congrArg Accepted.root heq).symm, (congrArg Accepted.entry heq).symm⟩
    · rintro ⟨hroot, hentry⟩
      exact resolve_of_normalize_eq hcwd h hroot hentry
  obtain ⟨-, -, rfl, -⟩ := resolve_eq_ok_iff.mp h
  have habs := isAbsolute_rootOf hcwd root
  exact ⟨⟨habs, Path.not_mem_toSlashes _⟩,
    ⟨isAbsolute_entryOf hcwd root entry, Path.not_mem_toSlashes _⟩,
    Path.normalize_toSlashes_iff (Path.isAbsolute_absolute hcwd root),
    Path.normalize_toSlashes_iff (Path.isAbsolute_join habs entry), hagain⟩

/-- A project with a module, and another one in a folder beside it. -/
def moduleBesideFolder : FileTree where
  top := .folder 0 [("p".toList, .folder 0
    [("f.ts".toList, .file [] 0), ("x".toList, .folder 0 [("g.ts".toList, .file [] 0)])])]
  cwd := "/p".toList

/-- The backslash of the entry separates two names, and what is accepted is accepted again. -/
theorem resolve_accepted_separated :
    Path.isAbsolute moduleBesideFolder.cwd = true ∧
      (resolve moduleBesideFolder {} "x/..".toList "x\\g.ts".toList).value
        = .ok ⟨"/p".toList, "/p/x/g.ts".toList⟩ ∧
      (resolve moduleBesideFolder {} "/p".toList "/p/x/g.ts".toList).value
        = .ok ⟨"/p".toList, "/p/x/g.ts".toList⟩ := by
  have hcwd : Path.isAbsolute moduleBesideFolder.cwd = true := by decide
  have haccepted : (resolve moduleBesideFolder {} "x/..".toList "x\\g.ts".toList).value
      = .ok ⟨"/p".toList, "/p/x/g.ts".toList⟩ := by decide +kernel
  have hnames : Path.SeparatesNames (Path.absolute moduleBesideFolder.cwd "x/..".toList) :=
    Path.separatesNames_of_not_mem (by decide) (by decide)
  have hentryNames : Path.SeparatesNames (Path.join "/p".toList "x\\g.ts".toList) :=
    Or.inl (by decide +kernel)
  obtain ⟨-, -, hroot, hentry, hagain⟩ := resolve_accepted hcwd haccepted
  exact ⟨hcwd, haccepted, hagain.mpr ⟨hroot.mpr hnames, hentry.mpr hentryNames⟩⟩

/-- With `..` between them the backslashes separate no names. What is accepted is not normal, and
another entry is accepted when it is resolved again. -/
theorem exists_resolve_not_normal :
    (resolve moduleBesideFolder {} "/p".toList "x\\..\\f.ts".toList).value
        = .ok ⟨"/p".toList, "/p/x/../f.ts".toList⟩ ∧
      Path.normalize "/p/x/../f.ts".toList = "/p/f.ts".toList ∧
      (resolve moduleBesideFolder {} "/p".toList "/p/x/../f.ts".toList).value
        = .ok ⟨"/p".toList, "/p/f.ts".toList⟩ := by
  decide +kernel

end ImportClosure.Entry
