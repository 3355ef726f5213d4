import ImportClosure.Proofs.Project.Closure
import ImportClosure.Proofs.Project.Run

/-!
# `ImportClosure.Proofs.Project.Reported`: the paths that a run answers with

A run answers with paths exactly if no argument is blank (`exists_resolveImports_iff`). In a tree as
it is on a disk, without backslashes, these are the files that can be reached in the import graph
from the entry, if it is accepted, without the documents that cannot be read
(`mem_resolveImports_iff`). Two runs can then be compared by their graphs.
-/

set_option autoImplicit false

namespace ImportClosure

open Relation (ReflTransGen)

variable {tree : FileTree} {settings : Settings} {grammars : Grammars}
  {root entry file : Path} {paths : List Path}

/-- A run answers with paths if no argument is blank, whatever the tree and the settings are. -/
theorem exists_resolveImports_iff :
    (∃ paths, (resolveImports tree settings grammars root entry).value = .ok paths) ↔
      Text.allBlank root = false ∧ Text.allBlank entry = false := by
  rw [resolveImports_value]
  constructor
  · rintro ⟨paths, hpaths⟩
    by_contra hblank
    rw [not_and_or, Bool.not_eq_false, Bool.not_eq_false] at hblank
    obtain ⟨refusal, hmissing, hrefused⟩ :=
      Entry.isMissingArgument_of_allBlank tree settings hblank
    simp [hrefused, hmissing] at hpaths
  · rintro ⟨hroot, hentry⟩
    cases hresolve : (Entry.resolve tree settings root entry).value with
    | ok accepted => exact ⟨_, rfl⟩
    | error refusal =>
        exact ⟨[], by simp [Entry.isMissingArgument_of_resolve hroot hentry hresolve]⟩

/-- A run answers with what can be reached in the import graph from an accepted entry, without the
documents that cannot be read. -/
theorem mem_resolveImports_iff (hwf : tree.WellFormed) (hback : tree.NoBackslash)
    (hroot : '\\' ∉ root) (hentry : '\\' ∉ entry)
    (hpaths : (resolveImports tree settings grammars root entry).value = .ok paths) :
    file ∈ paths ↔
      (∃ accepted, (Entry.resolve tree settings root entry).value = .ok accepted) ∧
        ReflTransGen (Imports tree settings grammars (Entry.rootOf tree root))
          (Entry.entryOf tree root entry) file ∧
        ¬Walk.Unreadable settings
          (Walker.documentFiles tree settings (Entry.rootOf tree root)) file := by
  rw [resolveImports_value] at hpaths
  cases hresolve : (Entry.resolve tree settings root entry).value with
  | error refusal =>
      rw [hresolve] at hpaths
      cases hmissing : refusal.isMissingArgument with
      | true => simp [hmissing] at hpaths
      | false =>
          obtain rfl : [] = paths := by simpa [hmissing] using hpaths
          simp
  | ok accepted =>
      rw [hresolve] at hpaths
      obtain ⟨-, -, rfl, -, -, -, hsome⟩ := Entry.resolve_eq_ok_iff.mp hresolve
      obtain rfl := Except.ok.inj hpaths
      -- The root is absolute, and both it and the entry are in the form of `Path.toSlashes`.
      have hrootOf := Entry.rootOf_eq (hwf.not_mem_cwd hback) hroot
      have hspelled : Path.toSlashes (Entry.rootOf tree root) = Entry.rootOf tree root := by
        refine (Path.toSlashes_eq_self_iff _).mpr ⟨Path.not_mem_toSlashes _, ?_⟩
        rw [hrootOf, Path.normalize_absolute]
      have hhere : Entry.rootOf tree root ≠ Path.here := by
        intro heq
        have habs := Path.isAbsolute_absolute hwf.isAbsolute_cwd root
        rw [← hrootOf, heq] at habs
        exact absurd habs (by decide)
      have hentryOf : Path.toSlashes (Entry.entryOf tree root entry)
          = Entry.entryOf tree root entry := by
        refine (Path.toSlashes_eq_self_iff _).mpr ⟨Path.not_mem_toSlashes _, ?_⟩
        rw [Entry.entryOf_eq hentry, Path.normalize_idem]
      have hexhausts := Walker.exhausts_walk grammars hwf.names hback hspelled hhere hentryOf hsome
      rw [Walker.dependencies, Text.mem_sortedSet, Walk.mem_dependencies_iff hexhausts]
      simp

end ImportClosure
