import ImportClosure.Proofs.Analyzer.Exposed
import ImportClosure.Proofs.Project.Transfer

/-!
# `ImportClosure.Proofs.Project.Outside`: what files outside the root change

Two trees without links that agree below the root have the same import graph there, up to the
files that the analyzer's exposed paths ask for, and what the graph leads to from a file below the
root is below it as well (`imports_congr`). `resolveImports_congr` is the main result: if the
trees also agree on which exposed paths are files, a run answers the same in both.

This last condition is needed: `exists_resolveImports_ne` is a pair of projects that agree below
the root, where a file beside the root changes what a module below it imports.
-/

set_option autoImplicit false

namespace ImportClosure

open FileTree (StaysBelow Hosts Twins)
open ImportClosure.Path (Plain)

variable {tree first second : FileTree} {settings : Settings}
  {grammars : Grammars} {root entry path file : Path} {place : Place}

/-- A path in the form of `Path.toSlashes`, of the place or below it. -/
def Inner (place : Place) (path : Path) : Prop :=
  '\\' ∉ path ∧ ∃ below, Plain (place ++ below) path

/-- An inner path stays below the place. -/
theorem Inner.staysBelow (h : Inner place path) : StaysBelow place path := by
  obtain ⟨-, below, hplain⟩ := h
  exact FileTree.staysBelow_of_plain hplain

/-- An inner path is in the form of `Path.toSlashes`. -/
theorem Inner.toSlashes (h : Inner place path) : Path.toSlashes path = path := by
  obtain ⟨hclean, below, hplain⟩ := h
  rw [Path.toSlashes_of_not_mem hclean, hplain.normalize]

/-- An inner path has the same text in both trees. -/
theorem documentText_congr (h : Twins place first second) (hpath : Inner place path) :
    Walker.documentText first path = Walker.documentText second path := by
  rw [Walker.documentText, Walker.documentText, h.read_eq hpath.staysBelow]

/-! ### Edges -/

/-- The files of listed places are inner. -/
theorem inner_filePath (h : tree.Hosts place) (hroot : Plain place root) (hclean : '\\' ∉ root)
    {found : Place} (hfound : found ∈ Locator.places tree settings root) :
    Inner place (Locator.filePath root found) := by
  exact ⟨Text.not_mem_replace (by decide) _, found, Locator.plain_filePath hroot hclean
    (Locator.named_of_mem_places h.wf.names hfound) (Locator.named_of_mem_places h.back hfound)
    (Locator.ne_nil_of_mem_places hfound)⟩

/-- What a specifier names in an absolute directory is inner. -/
theorem inner_of_resolve (h : tree.Hosts place) (hroot : Plain place root) {directory : Path}
    (hdirectory : Path.isAbsolute directory = true) {specifier : Text}
    (hresolve : Analyzer.resolve tree settings root specifier directory = some file) :
    Inner place file := by
  obtain ⟨candidate, hmem, hisFile, rfl, hinside⟩ :=
    Analyzer.exists_candidate_of_resolve tree settings root hresolve
  have hbase : Plain (Path.segments (Analyzer.specifiedPath specifier directory))
      (Analyzer.specifiedPath specifier directory) :=
    Path.plain_normalize (Path.isAbsolute_join hdirectory _)
  have habs := Analyzer.isAbsolute_of_mem_candidates hbase hmem
  obtain ⟨more, -, hplain⟩ := Analyzer.beneath_of_isInside h hroot habs hisFile hinside
  refine ⟨Path.not_mem_toSlashes _, more, ?_⟩
  rwa [Path.toSlashes_of_not_mem (FileTree.not_mem_of_isFile h.back hisFile)]

/-- An edge from an inner file is one in the other tree, and leads to an inner file. -/
theorem imports_congr (h : Twins place first second) (hroot : Plain place root)
    (hclean : '\\' ∉ root) (hsame : Analyzer.AgreeExposed settings place first second)
    (hpath : Inner place path) (hedge : Imports first settings grammars root path file) :
    Imports second settings grammars root path file ∧ Inner place file := by
  constructor
  · refine imports_of_agree h.cwd_eq (h.mem_listing_iff hroot _) (fun text htext => ?_)
      (fun files hfiles => ?_) hedge
    · rwa [← documentText_congr h hpath]
    · rwa [← Analyzer.moduleImports_congr h hroot hsame hpath.staysBelow]
  · rcases imports_cases hedge with ⟨found, hfound, rfl⟩ | ⟨specifier, hresolve⟩
    · exact inner_filePath h.left hroot hclean hfound
    · exact inner_of_resolve h.left hroot (Path.isAbsolute_directory hpath.staysBelow.1) hresolve

/-- What inner files import carries over to the other tree. -/
theorem carries_inner (h : Twins place first second) (hroot : Plain place root)
    (hclean : '\\' ∉ root) (hsame : Analyzer.AgreeExposed settings place first second) :
    Carries first second settings settings grammars grammars root (Inner place) where
  toSlashes_eq _ hpath := hpath.toSlashes
  imports _ _ hpath hedge := imports_congr h hroot hclean hsame hpath hedge
  unreadable path hpath hunreadable := by
    rw [Walker.unreadable_iff] at hunreadable ⊢
    rwa [documentText_congr h hpath]

/-! ### Walks -/

/-- From an inner entry walks find the same in both trees. -/
theorem dependencies_congr (h : Twins place first second) (hroot : Plain place root)
    (hclean : '\\' ∉ root) (hsame : Analyzer.AgreeExposed settings place first second)
    (hentry : Inner place entry) (hsome : (classify settings entry).isSome) :
    ((Walker.new root settings grammars).walk first entry).value.dependencies
      = ((Walker.new root settings grammars).walk second entry).value.dependencies := by
  have hinner : Inner place root := ⟨hclean, [], by rwa [List.append_nil]⟩
  have hhere : root ≠ Path.here := by
    rintro rfl
    exact absurd hroot.isAbsolute (by decide)
  exact (carries_inner h hroot hclean hsame).dependencies_eq
    (carries_inner h.symm hroot hclean hsame.symm) h.left.wf.names h.right.wf.names h.left.back
    h.right.back hinner.toSlashes hhere hentry hsome hsome

/-! ### Entries -/

namespace Entry

/-- An accepted entry is inner. -/
theorem inner_entryOf (h : tree.Hosts place) (hroot : Plain place (rootOf tree root))
    (hentry : '\\' ∉ entry) {accepted : Accepted}
    (hresolve : (resolve tree settings root entry).value = .ok accepted) :
    Inner place (entryOf tree root entry) := by
  obtain ⟨-, -, -, hfile, hstays, -, -⟩ := resolve_eq_ok_iff.mp hresolve
  obtain ⟨names, hplain⟩ : ∃ names, Plain names (entryOf tree root entry) := by
    rw [entryOf_eq hentry]
    exact ⟨_, Path.plain_normalize (Path.isAbsolute_join hroot.isAbsolute entry)⟩
  have hleaves : Path.leaves (Path.relative tree.cwd (entryOf tree root entry) (rootOf tree root))
      = false := by
    rw [wayTo_entryOf h.wf.isAbsolute_cwd] at hstays
    refine (Path.leaves_eq_false_iff _).mpr ⟨fun hparent => ?_, hstays⟩
    -- The entry would be the folder above the root.
    obtain ⟨last, rfl⟩ := hroot.exists_last_of_relative hplain hparent
    obtain ⟨modified, entries, hfolder⟩ := h.folder
    obtain ⟨content, modified, hat⟩ := FileTree.exists_at?_of_isFile h.wf h.links hfile
    rw [hplain.absolute, hplain.segments] at hat
    rw [Node.at?_append, hat] at hfolder
    simp [Node.at?, Node.child?] at hfolder
  obtain ⟨below, rfl⟩ := (hroot.leaves_iff hplain tree.cwd).mp hleaves
  exact ⟨Path.not_mem_toSlashes _, below, hplain⟩

/-- What is accepted in one tree is accepted in the other. -/
theorem accepts_congr (h : Twins place first second) (hroot : Plain place (rootOf first root))
    (hentry : '\\' ∉ entry) {accepted : Accepted}
    (hresolve : (resolve first settings root entry).value = .ok accepted) :
    (resolve second settings root entry).value = .ok accepted := by
  have hinner := inner_entryOf h.left hroot hentry hresolve
  exact accepts_of_isFile h.cwd_eq (h.isFile_eq hinner.staysBelow) hresolve

end Entry

/-! ### Runs -/

/-- In two trees without links that agree below the root, and on which exposed paths are files, a
run answers the same. -/
theorem resolveImports_congr (h : Twins place first second) {modified : Int}
    {entries : List (Text × Node)}
    (hroot : first.find root = .ok (place, .folder modified entries)) (hclean : '\\' ∉ root)
    (hentry : '\\' ∉ entry) (hsame : Analyzer.AgreeExposed settings place first second) :
    (resolveImports first settings grammars root entry).value
      = (resolveImports second settings grammars root entry).value := by
  have hplain : Plain place (Entry.rootOf first root) := by
    rw [FileTree.place_of_find h.left.wf h.left.links hroot,
      Entry.rootOf_eq (h.left.wf.not_mem_cwd h.left.back) hclean,
      ← Path.normalize_absolute first.cwd root]
    exact Path.plain_normalize (Path.isAbsolute_absolute h.left.wf.isAbsolute_cwd root)
  have hplain' : Plain place (Entry.rootOf second root) := by
    rwa [← Entry.rootOf_congr h.cwd_eq]
  rw [resolveImports_value, resolveImports_value]
  cases hfirst : (Entry.resolve first settings root entry).value with
  | ok accepted =>
      have hinner := Entry.inner_entryOf h.left hplain hentry hfirst
      obtain ⟨-, -, rfl, -, -, -, hsome⟩ := Entry.resolve_eq_ok_iff.mp hfirst
      rw [Entry.accepts_congr h hplain hentry hfirst]
      exact congrArg Except.ok
        (dependencies_congr h hplain (Path.not_mem_toSlashes _) hsame hinner hsome)
  | error refusal =>
      -- A refusal shows only if an argument is blank, and then it is the same for all trees.
      by_cases hblank : Text.allBlank root = true ∨ Text.allBlank entry = true
      · rw [← Entry.resolve_congr_of_allBlank first second hblank, hfirst]
      simp only [not_or, Bool.not_eq_true] at hblank
      cases hsecond : (Entry.resolve second settings root entry).value with
      | ok accepted =>
          have haccepted := Entry.accepts_congr h.symm hplain' hentry hsecond
          rw [hfirst] at haccepted
          contradiction
      | error other =>
          simp only [Entry.isMissingArgument_of_resolve hblank.1 hblank.2 hfirst,
            Entry.isMissingArgument_of_resolve hblank.1 hblank.2 hsecond, Bool.false_eq_true,
            if_false]

/-- A project with a module that imports its own folder, and something beside the folder. -/
def besides (beside : List (Text × Node)) : FileTree where
  top := .folder 0 (("p".toList, .folder 0
    [("a.ts".toList, .file (Text.encode "import \".\"\nimport \"../q\"\n".toList) 0),
      ("index.ts".toList, .file [] 0)]) :: beside)
  cwd := "/p".toList

/-- Whatever is beside the folder, it is the same below it. -/
theorem twins_besides {beside : List (Text × Node)} (hwf : (besides beside).WellFormed)
    (hback : (besides beside).NoBackslash) (hlinks : (besides beside).NoLinks) :
    Twins ["p".toList] (besides beside) (besides []) where
  left := ⟨hwf, hback, hlinks, _, _, rfl⟩
  right := by
    refine ⟨⟨by decide +kernel, by decide +kernel, ["p".toList], _, _, by decide +kernel, rfl⟩,
      by decide +kernel, by decide +kernel, _, _, rfl⟩
  cwd_eq := rfl
  agree := FileTree.agreeBelow_of_at?_eq hlinks rfl

/-- A module beside the folder that has another name than the folder is no exposed path. -/
theorem agreeExposed_besides :
    Analyzer.AgreeExposed {} ["p".toList] (besides [("q.ts".toList, .file [] 0)])
      (besides []) := by
  intro path hexposed
  obtain ⟨-, base, ⟨slashes, hslashes, hparts, rfl⟩, hends⟩ :=
    (Analyzer.exposed_iff (by decide) (by decide)).mp hexposed
  -- The exposed paths are `/p` and `//p` with another ending, and none of them is a file.
  have hall : ∀ slashes ∈ [['/'], ['/', '/']],
      Path.extension (Path.ofParts slashes ["p".toList]) ∉ Analyzer.compiledExtensions ∧
      ∀ e ∈ ({} : Settings).sourceExtensions,
        (besides [("q.ts".toList, .file [] 0)]).isFile (Path.ofParts slashes ["p".toList] ++ e)
          = (besides []).isFile (Path.ofParts slashes ["p".toList] ++ e) := by decide +kernel
  have hmem : slashes ∈ [['/'], ['/', '/']] := by
    rcases hparts.leading with rfl | rfl | rfl <;> simp at hslashes ⊢
  rcases hends with ⟨hcompiled, -⟩ | ⟨e, he, rfl⟩
  · exact absurd hcompiled (hall slashes hmem).1
  · exact (hall slashes hmem).2 e he

/-- With it or without it, the run answers the same. -/
theorem resolveImports_besides_unexposed :
    Twins ["p".toList] (besides [("q.ts".toList, .file [] 0)]) (besides []) ∧
      Analyzer.AgreeExposed {} ["p".toList] (besides [("q.ts".toList, .file [] 0)])
        (besides []) ∧
      (resolveImports (besides [("q.ts".toList, .file [] 0)]) {} (.builtIn []) "/p".toList
          "a.ts".toList).value
        = (resolveImports (besides []) {} (.builtIn []) "/p".toList "a.ts".toList).value := by
  have htwins : Twins ["p".toList] (besides [("q.ts".toList, .file [] 0)]) (besides []) :=
    twins_besides ⟨by decide +kernel, by decide +kernel, ["p".toList], _, _, by decide +kernel, rfl⟩
      (by decide +kernel) (by decide +kernel)
  exact ⟨htwins, agreeExposed_besides,
    resolveImports_congr htwins rfl (by decide) (by decide) agreeExposed_besides⟩

/-- A module beside the folder with the name of the folder hides the folder's index file. Its path
is exposed. -/
theorem exists_resolveImports_ne :
    Twins ["p".toList] (besides [("p.ts".toList, .file [] 0)]) (besides []) ∧
      Analyzer.Exposed {} ["p".toList] "/p.ts".toList ∧
      (resolveImports (besides [("p.ts".toList, .file [] 0)]) {} (.builtIn []) "/p".toList
        "a.ts".toList).value = .ok ["/p/a.ts".toList] ∧
      (resolveImports (besides []) {} (.builtIn []) "/p".toList "a.ts".toList).value
        = .ok ["/p/a.ts".toList, "/p/index.ts".toList] := by
  have htwins : Twins ["p".toList] (besides [("p.ts".toList, .file [] 0)]) (besides []) :=
    twins_besides ⟨by decide +kernel, by decide +kernel, ["p".toList], _, _, by decide +kernel, rfl⟩
      (by decide +kernel) (by decide +kernel)
  have hstays : ¬FileTree.StaysBelow ["p".toList] "/p.ts".toList := fun hbelow =>
    absurd (htwins.isFile_eq hbelow) (by decide +kernel)
  have hplain : Path.Plain ["p".toList] "/p".toList :=
    @Path.plain_normalize "/p".toList rfl
  have hexposed : Analyzer.Exposed {} ["p".toList] "/p.ts".toList :=
    (Analyzer.exposed_iff (by decide) (by decide)).mpr
      ⟨hstays, "/p".toList, hplain, Or.inr ⟨".ts".toList, by decide, rfl⟩⟩
  exact ⟨htwins, hexposed, by decide +kernel, by decide +kernel⟩

end ImportClosure
