import ImportClosure.Artifact
import ImportClosure.Proofs.Text.Split

/-!
# `ImportClosure.Proofs.Artifact`: recognized files and vendor directories

What `classify` and `isVendored` ask of a path: its extension, and the names of its folders. A path
without backslashes is cut at its slashes only.
-/

set_option autoImplicit false

namespace ImportClosure

variable {settings : Settings} {path : Path}

/-- A file is of a recognized kind if its extension is a recognized one. -/
theorem isSome_classify_iff :
    (classify settings path).isSome ↔
      Text.lower (Path.extension path) ∈ settings.sourceExtensions := by
  rw [classify, Settings.sourceExtensions, List.mem_append]
  by_cases hdocument : Text.lower (Path.extension path) ∈ settings.documentExtensions
  · simp [hdocument]
  · by_cases hmodule : Text.lower (Path.extension path) ∈ settings.moduleExtensions <;>
      simp [hdocument, hmodule]

/-- A path crosses no vendor directory if none of its folders has the name of one. -/
theorem isVendored_eq_false_iff (hback : '\\' ∉ path) :
    isVendored settings path = false ↔
      ∀ folder ∈ (Text.splitOn '/' path).dropLast, folder ∉ settings.vendorDirs := by
  rw [isVendored, Path.folders, Text.replace_of_not_mem hback, List.any_eq_false]
  simp

/-- With a slash at its end a path crosses no vendor directory if none of its segments has the name
of one. -/
theorem isVendored_append_slash (hback : '\\' ∉ path) :
    isVendored settings (path ++ ['/']) = false ↔
      ∀ segment ∈ Text.splitOn '/' path, segment ∉ settings.vendorDirs := by
  have hclean : '\\' ∉ path ++ ['/'] := by simpa using hback
  have hsplit : Text.splitOn '/' (path ++ ['/']) = Text.splitOn '/' path ++ [[]] :=
    Text.splitOn_append_cons '/' path []
  rw [isVendored_eq_false_iff hclean, hsplit, List.dropLast_concat]

/-- A path that crosses no vendor directory crosses none where fewer names are vendor directories.
-/
theorem isVendored_of_subset {settings' : Settings} (h : settings'.vendorDirs ⊆ settings.vendorDirs)
    (hpath : isVendored settings path = false) : isVendored settings' path = false := by
  simp only [isVendored, List.any_eq_false, decide_eq_true_eq] at hpath ⊢
  exact fun folder hfolder hvendor => hpath folder hfolder (h hvendor)

end ImportClosure
