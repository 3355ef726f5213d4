import ImportClosure.Analyzer.Resolve

/-!
# `ImportClosure.Proofs.Analyzer.Query`: specifiers with a query

A query is no part of the path that a specifier stands for (`specifiedPath_query`), but it is still
there when the specifier is tested. The test reads the first characters, and for `.` and `..` all of
them: with a query after them these two are no relative specifiers (`isRelative_query_iff`). So a
query changes nothing about any other specifier, and it leaves these two without a file:
`resolve_query`.
-/

set_option autoImplicit false

namespace ImportClosure

/-- What comes after the first occurrence of a character is not before it. -/
theorem Text.before_append_cons (c : Char) (text more : Text) :
    before c (text ++ c :: more) = before c text := by
  induction text with
  | nil => simp [before]
  | cons d rest ih =>
      rw [before, before] at ih
      rw [before, before, List.cons_append, List.takeWhile_cons, List.takeWhile_cons, ih]

namespace Analyzer

/-- A query is no part of the path. -/
theorem specifiedPath_query (specifier query : Text) (directory : Path) :
    specifiedPath (specifier ++ '?' :: query) directory = specifiedPath specifier directory := by
  rw [specifiedPath, Text.before_append_cons, specifiedPath]

/-- A specifier is relative with a query if it is relative without one, except for `.` and `..`. -/
theorem isRelative_query_iff (specifier query : Text) :
    isRelative (specifier ++ '?' :: query) = true ↔
      isRelative specifier = true ∧ ¬(specifier = Path.here ∨ specifier = Path.parent) := by
  -- The beginnings that are tested have three characters at most.
  match specifier with
  | [] => simp [isRelative, Text.startsWith, Path.here, Path.parent]
  | [a] => simp [isRelative, Text.startsWith, Path.here, Path.parent]
  | [a, b] =>
      simp only [isRelative, Text.startsWith, Path.here, Path.parent]
      grind
  | a :: b :: c :: rest => simp [isRelative, Text.startsWith, Path.here, Path.parent]

/-- With a query, `.` and `..` name no file and every other specifier names the file that it names
without one. So a query changes nothing exactly if the specifier is another one, or names no file
anyway. -/
theorem resolve_query (tree : FileTree) (settings : Settings) (root directory : Path)
    (specifier query : Text) :
    resolve tree settings root (specifier ++ '?' :: query) directory =
        (if specifier = Path.here ∨ specifier = Path.parent then none
          else resolve tree settings root specifier directory) ∧
      (resolve tree settings root (specifier ++ '?' :: query) directory
          = resolve tree settings root specifier directory ↔
        (specifier = Path.here ∨ specifier = Path.parent →
          resolve tree settings root specifier directory = none)) := by
  have hquery : resolve tree settings root (specifier ++ '?' :: query) directory =
      if specifier = Path.here ∨ specifier = Path.parent then none
      else resolve tree settings root specifier directory := by
    rw [resolve, specifiedPath_query, resolve]
    by_cases hbare : specifier = Path.here ∨ specifier = Path.parent
    · have hnot : ¬isRelative (specifier ++ '?' :: query) = true := fun h =>
        ((isRelative_query_iff specifier query).mp h).2 hbare
      rw [if_neg hnot, if_pos hbare]
    · have hsame : isRelative (specifier ++ '?' :: query) = true ↔ isRelative specifier = true :=
        (isRelative_query_iff specifier query).trans (and_iff_left hbare)
      rw [if_neg hbare]
      simp only [hsame]
  refine ⟨hquery, ?_⟩
  rw [hquery]
  by_cases hbare : specifier = Path.here ∨ specifier = Path.parent
  · simp [hbare, eq_comm]
  · simp [hbare]

/-- A project with an index file. -/
def indexed : FileTree where
  top := .folder 0 [("p".toList, .folder 0 [("index.ts".toList, .file [] 0)])]
  cwd := "/p".toList

/-- The folder of a module is its index file, and with a query it is nothing. -/
theorem exists_resolve_query_ne :
    resolve indexed {} "/p".toList ".".toList "/p".toList = some "/p/index.ts".toList ∧
      resolve indexed {} "/p".toList ".?raw".toList "/p".toList = none ∧
      resolve indexed {} "/p".toList "./?raw".toList "/p".toList = some "/p/index.ts".toList := by
  decide +kernel

end Analyzer

end ImportClosure
