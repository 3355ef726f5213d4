import ImportClosure.Proofs.Project.Closure

/-!
# `ImportClosure.Proofs.Project.Walks`: several walks of one walker

Locator, analyzer and progress carry over from one walk of a walker to the next (`walkAll`), and a
file that was met is never visited again. So a later walk relies on the earlier ones to have met
all that can be reached from the files that they have met: `exhausts_walkAll`.

`dependencies_walkAll` is the main result. The walks together find what each entry has by itself,
with a new walker, so neither the order of the entries nor their repetition matters. As for a
single walk, the root must not be `.`: `exists_dependencies_walkAll_ne` is a project in which two
orders of the same entries find different files there.
-/

set_option autoImplicit false

namespace ImportClosure.Walker

open Relation (ReflTransGen)

variable {tree : FileTree} {settings : Settings} {grammars : Grammars}
  {root file : Path} {walker : Walker} {entries : List Path}

/-- Walks from one entry after the other. -/
def walkAll (tree : FileTree) : List Path → Walker → Traced Walker
  | [], walker => pure walker
  | entry :: entries, walker => do
    let walker ← walker.walk tree entry
    walkAll tree entries walker

/-- The walks of a walker of the project exhaust the import graph from the recognized entries,
those of the walks before included. -/
theorem exhausts_walkAll (hnames : tree.top.Named Path.IsName) (hback : tree.NoBackslash)
    (hroot : Path.toSlashes root = root) (hhere : root ≠ Path.here)
    (hentries : ∀ entry ∈ entries, Path.toSlashes entry = entry)
    (hwalker : Of tree settings grammars root walker) {before : List Path}
    (hinv : Walk.Exhausts settings (documentFiles tree settings root)
      (moduleFiles tree settings grammars root) (Imports tree settings grammars root)
      (fun path => Path.toSlashes path = path) before [] walker.progress) :
    Walk.Exhausts settings (documentFiles tree settings root)
      (moduleFiles tree settings grammars root) (Imports tree settings grammars root)
      (fun path => Path.toSlashes path = path)
      ((entries.filter fun entry => (classify settings entry).isSome).reverse ++ before) []
      (walkAll tree entries walker).value.progress := by
  -- Each walk adds its entry to those before, so the induction is for any entries before.
  induction entries generalizing walker before with
  | nil => exact hinv
  | cons first rest ih =>
      obtain ⟨hend, hafter⟩ := walk_preserves hwalker
        (fun a stack p => Walk.exhausts_next (depicts hnames hback hroot hhere) a) first
        (Walk.exhausts_begun (hentries first (by simp)) hinv)
      have hrest := ih (fun entry hentry => hentries entry (List.mem_cons_of_mem first hentry))
        hafter hend
      by_cases hsome : (classify settings first).isSome = true
      · rw [if_pos hsome] at hrest
        simpa [List.filter_cons, hsome, walkAll] using hrest
      -- An entry that is not recognized adds nothing.
      · rw [if_neg hsome] at hrest
        simpa [List.filter_cons, hsome, walkAll] using hrest

/-- The walks of a new walker find what can be reached from the recognized entries, without the
documents that cannot be read. -/
theorem mem_dependencies_walkAll (hnames : tree.top.Named Path.IsName) (hback : tree.NoBackslash)
    (hroot : Path.toSlashes root = root) (hhere : root ≠ Path.here)
    (hentries : ∀ entry ∈ entries, Path.toSlashes entry = entry) :
    file ∈ (walkAll tree entries (new root settings grammars)).value.dependencies ↔
      (∃ entry ∈ entries, (classify settings entry).isSome ∧
        ReflTransGen (Imports tree settings grammars root) entry file) ∧
      ¬Walk.Unreadable settings (documentFiles tree settings root) file := by
  have hexhausts := exhausts_walkAll hnames hback hroot hhere hentries
    (of_new tree settings grammars root) Walk.exhausts_empty
  rw [dependencies, Text.mem_sortedSet, Walk.mem_dependencies_iff hexhausts]
  simp [and_assoc]

/-- The walks of a new walker find what the entries have by themselves. -/
theorem mem_dependencies_walkAll_iff_exists (hnames : tree.top.Named Path.IsName)
    (hback : tree.NoBackslash) (hroot : Path.toSlashes root = root) (hhere : root ≠ Path.here)
    (hentries : ∀ entry ∈ entries, Path.toSlashes entry = entry) :
    file ∈ (walkAll tree entries (new root settings grammars)).value.dependencies ↔
      ∃ entry ∈ entries,
        file ∈ ((new root settings grammars).walk tree entry).value.dependencies := by
  rw [mem_dependencies_walkAll hnames hback hroot hhere hentries]
  -- The walk from a single entry is the case of a list of one.
  have hsingle : ∀ entry ∈ entries,
      (file ∈ ((new root settings grammars).walk tree entry).value.dependencies ↔
        ((classify settings entry).isSome ∧
          ReflTransGen (Imports tree settings grammars root) entry file) ∧
        ¬Walk.Unreadable settings (documentFiles tree settings root) file) := by
    intro entry hentry
    have hone : file ∈ (walkAll tree [entry] (new root settings grammars)).value.dependencies ↔ _ :=
      mem_dependencies_walkAll hnames hback hroot hhere (by simpa using hentries entry hentry)
    simpa [walkAll] using hone
  constructor
  · rintro ⟨⟨entry, hentry, hreach⟩, hread⟩
    exact ⟨entry, hentry, (hsingle entry hentry).mpr ⟨hreach, hread⟩⟩
  · rintro ⟨entry, hentry, hfile⟩
    obtain ⟨hreach, hread⟩ := (hsingle entry hentry).mp hfile
    exact ⟨⟨entry, hentry, hreach⟩, hread⟩

/-- The walks of a new walker find the same from entries in another order or number. -/
theorem dependencies_walkAll_congr (hnames : tree.top.Named Path.IsName)
    (hback : tree.NoBackslash) (hroot : Path.toSlashes root = root) (hhere : root ≠ Path.here)
    (hentries : ∀ entry ∈ entries, Path.toSlashes entry = entry) {others : List Path}
    (hothers : ∀ entry, entry ∈ others ↔ entry ∈ entries) :
    (walkAll tree others (new root settings grammars)).value.dependencies
      = (walkAll tree entries (new root settings grammars)).value.dependencies := by
  have hmem : ∀ file,
      file ∈ (walkAll tree others (new root settings grammars)).value.dependencies ↔
        file ∈ (walkAll tree entries (new root settings grammars)).value.dependencies := by
    intro file
    rw [mem_dependencies_walkAll hnames hback hroot hhere hentries,
      mem_dependencies_walkAll hnames hback hroot hhere fun entry hentry =>
        hentries entry ((hothers entry).mp hentry)]
    simp only [hothers]
  refine Text.sortedSet_eq_of_mem_iff fun file => ?_
  simpa [dependencies] using hmem file

/-- Several walks of a new walker find what the entries have by themselves, and so the same
whatever the order of the entries is, and how often they are repeated. -/
theorem dependencies_walkAll (hnames : tree.top.Named Path.IsName) (hback : tree.NoBackslash)
    (hroot : Path.toSlashes root = root) (hhere : root ≠ Path.here)
    (hentries : ∀ entry ∈ entries, Path.toSlashes entry = entry) :
    (∀ file, file ∈ (walkAll tree entries (new root settings grammars)).value.dependencies ↔
      ∃ entry ∈ entries,
        file ∈ ((new root settings grammars).walk tree entry).value.dependencies) ∧
    ∀ others : List Path, (∀ entry, entry ∈ others ↔ entry ∈ entries) →
      (walkAll tree others (new root settings grammars)).value.dependencies
        = (walkAll tree entries (new root settings grammars)).value.dependencies :=
  ⟨fun _ => mem_dependencies_walkAll_iff_exists hnames hback hroot hhere hentries,
    fun _ hothers => dependencies_walkAll_congr hnames hback hroot hhere hentries hothers⟩

/-- A project with a document that imports a module, and two modules that import each other. -/
def mutualImport : FileTree where
  top := .folder 0 [("p".toList, .folder 0
    [("d.mdx".toList, .file (Text.encode "import \"./a\"\n".toList) 0),
      ("a.ts".toList, .file (Text.encode "import \"./b\"\n".toList) 0),
      ("b.ts".toList, .file (Text.encode "import \"./a\"\n".toList) 0)])]
  cwd := "/p".toList

/-- Under an absolute root a document and a module that it leads to can be walked from in both
orders: the document adds itself to what the module has by itself. -/
theorem dependencies_walkAll_mutualImport :
    ((new "/p".toList {} (.builtIn [])).walk mutualImport "/p/b.ts".toList).value.dependencies
        = ["/p/a.ts".toList, "/p/b.ts".toList] ∧
      "/p/a.ts".toList ∈ (walkAll mutualImport ["/p/d.mdx".toList, "/p/b.ts".toList]
        (new "/p".toList {} (.builtIn []))).value.dependencies ∧
      (walkAll mutualImport ["/p/b.ts".toList, "/p/d.mdx".toList, "/p/b.ts".toList]
          (new "/p".toList {} (.builtIn []))).value.dependencies
        = (walkAll mutualImport ["/p/d.mdx".toList, "/p/b.ts".toList]
          (new "/p".toList {} (.builtIn []))).value.dependencies := by
  have hsame : ∀ entry, entry ∈ ["/p/b.ts".toList, "/p/d.mdx".toList, "/p/b.ts".toList] ↔
      entry ∈ ["/p/d.mdx".toList, "/p/b.ts".toList] := by
    intro entry
    simp only [List.mem_cons, List.not_mem_nil, or_false]
    tauto
  have hsingle :
      ((new "/p".toList {} (.builtIn [])).walk mutualImport "/p/b.ts".toList).value.dependencies
      = ["/p/a.ts".toList, "/p/b.ts".toList] := by decide +kernel
  have hentries : ∀ entry ∈ ["/p/d.mdx".toList, "/p/b.ts".toList],
      Path.toSlashes entry = entry := by decide +kernel
  have hwalks := @dependencies_walkAll mutualImport {} (.builtIn []) "/p".toList
    ["/p/d.mdx".toList, "/p/b.ts".toList] (by decide +kernel) (by decide +kernel)
    (by decide +kernel) (by decide +kernel) hentries
  refine ⟨hsingle, (hwalks.1 _).mpr ⟨"/p/b.ts".toList, by simp, ?_⟩, hwalks.2 _ hsame⟩
  rw [hsingle]
  simp

/-- Under the root `.` the first walk takes in what one of the two modules leads to, but not the
module itself by the path that the other one imports it by. A later walk from the other module
passes it over, while a walk from it that comes first finds that path. -/
theorem exists_dependencies_walkAll_ne :
    mutualImport.top.Named Path.IsName ∧ mutualImport.NoBackslash ∧
      Path.toSlashes Path.here = Path.here ∧
      (∀ entry ∈ ["d.mdx".toList, "b.ts".toList], Path.toSlashes entry = entry) ∧
      (walkAll mutualImport ["d.mdx".toList, "b.ts".toList]
          (new Path.here {} (.builtIn []))).value.dependencies
        = ["./a.ts".toList, "b.ts".toList, "d.mdx".toList] ∧
      (walkAll mutualImport ["b.ts".toList, "d.mdx".toList]
          (new Path.here {} (.builtIn []))).value.dependencies
        = ["./a.ts".toList, "a.ts".toList, "b.ts".toList, "d.mdx".toList] ∧
      ((new Path.here {} (.builtIn [])).walk mutualImport "b.ts".toList).value.dependencies
        = ["a.ts".toList, "b.ts".toList] := by
  decide +kernel

end ImportClosure.Walker
