import ImportClosure.Proofs.Project.Closure
import ImportClosure.Proofs.Project.Run

/-!
# `ImportClosure.Proofs.Project.Existence`: which paths of a run are files

A run tests the entry, reads each document, and the analyzer tests each candidate before it
answers with it. Two things are never tested: a module at which a document's reference is located,
which the listing shows even if it is a link to nowhere, and the form that `Path.toSlashes` gives
to a tested candidate. `forall_isFile_resolveImports_iff` says that nothing else can go wrong:
all paths of a run are files exactly if those are. `exists_dangling_mem_resolveImports` is a
project with a path that is none.
-/

set_option autoImplicit false

namespace ImportClosure

variable {tree : FileTree} {settings : Settings} {grammars : Grammars}
  {root entry : Path} {paths : List Path}

/-- All paths of a run are files exactly if two kinds of paths are that no one tests: the modules
that documents among the paths import, and the paths that `Path.toSlashes` makes of files. -/
theorem forall_isFile_resolveImports_iff
    (h : (resolveImports tree settings grammars root entry).value = .ok paths) :
    (∀ path ∈ paths, tree.isFile path = true) ↔
      (∀ d ∈ paths, ∀ m, classify settings d = some .document →
        classify settings m = some .module →
        Imports tree settings grammars (Entry.rootOf tree root) d m → tree.isFile m = true) ∧
      (∀ path, tree.isFile path = true → Path.toSlashes path ∈ paths →
        tree.isFile (Path.toSlashes path) = true) := by
  rcases resolveImports_cases h with ⟨-, rfl⟩ | ⟨p, hran⟩
  · simp
  constructor
  -- What a document among the paths imports is among them.
  · intro hall
    refine ⟨?_, fun path _ hmem => hall _ hmem⟩
    intro d hd m hdoc hmod himports
    refine hall m ?_
    obtain ⟨files, hfiles⟩ := hran.exists_documentFiles hd hdoc
    obtain ⟨hmem, hsome⟩ := (Walker.imports_document_iff hdoc hfiles).mp himports
    exact hran.mem_of_documentFiles hd hdoc hfiles hmem hmod
  -- The entry is tested, and a document has been read; all else is in one of the two kinds.
  · rintro ⟨hlocated, hform⟩ path hpath
    rcases hran.mem_cases hpath with
      rfl | ⟨d, hd, hdoc, files, hfiles, hmem, hsome⟩ | ⟨m, hm, hmod, files, hfiles, hmem⟩
    · exact hran.isFile_entry
    · cases hkind : classify settings path with
      | none => simp [hkind] at hsome
      | some kind =>
          cases kind with
          | document => exact hran.isFile_document hpath hkind
          | module =>
              exact hlocated d hd path hdoc hkind
                ((Walker.imports_document_iff hdoc hfiles).mpr ⟨hmem, hsome⟩)
    · obtain ⟨candidate, hisFile, rfl, -⟩ := Walker.exists_isFile_of_moduleFiles hfiles hmem
      exact hform candidate hisFile hpath

/-- In a project without links all paths of the run are files, so what its document imports is. -/
theorem isFile_of_imports_selfImport :
    (resolveImports Walker.selfImport {} (.builtIn []) "/p".toList "d.mdx".toList).value
        = .ok ["/p/a.ts".toList, "/p/d.mdx".toList] ∧
      ∀ d ∈ ["/p/a.ts".toList, "/p/d.mdx".toList], ∀ m, classify {} d = some .document →
        classify {} m = some .module →
        Imports Walker.selfImport {} (.builtIn [])
          (Entry.rootOf Walker.selfImport "/p".toList) d m →
        Walker.selfImport.isFile m = true := by
  have hrun : (resolveImports Walker.selfImport {} (.builtIn []) "/p".toList "d.mdx".toList).value
      = .ok ["/p/a.ts".toList, "/p/d.mdx".toList] := by decide +kernel
  exact ⟨hrun, ((forall_isFile_resolveImports_iff hrun).mp (by decide +kernel)).1⟩

/-- A project with a document that imports a link to nowhere. -/
def danglingImport : FileTree where
  top := .folder 0 [("p".toList, .folder 0
    [("a.mdx".toList, .file (Text.encode "import \"./b\"\n".toList) 0),
      ("b.ts".toList, .link "nowhere".toList)])]
  cwd := "/p".toList

/-- The link to nowhere is among the paths of the run, and is no file. -/
theorem exists_dangling_mem_resolveImports :
    (resolveImports danglingImport {} (.builtIn []) "/p".toList "a.mdx".toList).value
        = .ok ["/p/a.mdx".toList, "/p/b.ts".toList] ∧
      danglingImport.isFile "/p/b.ts".toList = false := by
  decide +kernel

end ImportClosure
