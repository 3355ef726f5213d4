import ImportClosure.Proofs.Analyzer.Candidates
import ImportClosure.Proofs.Project.Run
import ImportClosure.Syntax.Grammar

/-!
# `ImportClosure.Proofs.Project.Spelling`: one spelling for each file

The paths of a run are told apart as texts. They come from three places: the entry is given, a
listed place is joined to the root, and the analyzer joins a specifier to the directory of a module.
The last two always spell a file in the same way, if the accepted root is normal, no source
extension begins with a slash, and the pieces of each name in the tree between backslashes are
names: such paths are normal and begin with the slashes of the root, so that the way from the root
tells them apart.

The accepted entry need not be normal, as `Path.toSlashes` normalizes before it exchanges the
backslashes. It and its normal form are therefore the only paths of a run that can name one file
twice, which is what `spelled_once_resolveImports` says.
`exists_two_spellings_resolveImports` is a document that imports itself and is listed twice for that
reason.
-/

set_option autoImplicit false

namespace ImportClosure

open ImportClosure.Path (Spelled NamePieces)

variable {tree : FileTree} {settings : Settings} {grammars : Grammars}
  {root entry : Path} {paths : List Path}

namespace FileTree

/-- The normal segments of the path of a file are names of the tree. -/
theorem normalSegments_of_isFile {Q : Text → Prop} (hQ : tree.top.Named Q) {path : Path}
    (habs : Path.isAbsolute path = true) (h : tree.isFile path = true) :
    ∀ segment ∈ Path.normalSegments path, Q segment := by
  intro segment hsegment
  have hname : Path.IsName segment :=
    (Path.isNormal_normalSegments path).isName ((Path.isAbsolute_iff path).mp habs) segment hsegment
  unfold isFile at h
  split at h
  · rename_i hfind
    have hpiece := Path.mem_normalSegments hsegment
    rcases find_segments hQ hfind segment hpiece with heq | heq | heq | hseg
    · exact absurd heq hname.ne_nil
    · exact absurd heq hname.ne_here
    · exact absurd heq hname.ne_parent
    · exact hseg
  · contradiction

end FileTree

namespace Analyzer

/-- Only a relative specifier names a file. -/
theorem isRelative_of_resolve {specifier : Text} {directory file : Path}
    (h : resolve tree settings root specifier directory = some file) :
    isRelative specifier = true := by
  unfold resolve at h
  split at h
  · assumption
  · contradiction

/-- A relative specifier is no absolute path, with or without its query. -/
theorem isAbsolute_before_of_isRelative {specifier : Text} (h : isRelative specifier = true) :
    Path.isAbsolute (Text.before '?' specifier) = false := by
  cases specifier with
  | nil => rfl
  | cons c rest =>
      have hc : '.' = c := by
        simp only [isRelative, Path.here, Path.parent, Text.startsWith, Bool.or_eq_true,
          decide_eq_true_eq, List.cons.injEq] at h
        rcases h with ((h | h) | h) | h
        · exact (List.cons_prefix_cons.mp (List.isPrefixOf_iff_prefix.mp h)).1
        · exact (List.cons_prefix_cons.mp (List.isPrefixOf_iff_prefix.mp h)).1
        · exact h.1.symm
        · exact h.1.symm
      subst hc
      rfl

/-- A file that a module names is spelled with the leading slashes of the module's directory. -/
theorem spelled_of_resolve (hpieces : tree.top.Named NamePieces)
    (hext : ∀ e ∈ settings.sourceExtensions, e.head? ≠ some '/') {specifier : Text}
    {directory file : Path} (hdirectory : Path.isAbsolute directory = true)
    (h : resolve tree settings root specifier directory = some file) :
    Spelled (Path.leadingSlashes directory) file := by
  have hrelative := isAbsolute_before_of_isRelative (isRelative_of_resolve h)
  have hjoin := Path.isAbsolute_join hdirectory (Text.before '?' specifier)
  have hplain := Path.plain_normalize hjoin
  obtain ⟨candidate, hcandidate, hfile, rfl, -⟩ := exists_candidate_of_resolve _ _ _ h
  have habs := isAbsolute_of_mem_candidates hplain hcandidate
  have hslashes : Path.leadingSlashes candidate = Path.leadingSlashes directory := by
    rw [leadingSlashes_of_mem_candidates hplain hext hcandidate,
      Path.leadingSlashes_normalize hjoin, Path.leadingSlashes_join hdirectory hrelative]
  rw [← hslashes]
  exact Path.spelled_toSlashes habs (FileTree.normalSegments_of_isFile hpieces habs hfile)

/-- The files that a search from a module reaches are spelled with the leading slashes of the
module. -/
theorem spelled_of_reached (hpieces : tree.top.Named NamePieces)
    (hext : ∀ e ∈ settings.sourceExtensions, e.head? ≠ some '/') {slashes : Text}
    (hs : slashes ≠ []) {start : Path} {files : List Path}
    (hfiles : moduleImports tree settings grammars root start = .ok files)
    (hstart : Path.leadingSlashes start = slashes) {file : Path}
    (h : Relation.TransGen (SearchStep tree settings grammars root start files) start file) :
    Spelled slashes file := by
  have hstep : ∀ {x y : Path}, Path.leadingSlashes x = slashes →
      SearchStep tree settings grammars root start files x y → Spelled slashes y := by
    intro x y hx hxy
    obtain ⟨-, more, hmore, hy⟩ := exists_moduleImports_of_searchStep hfiles hxy
    obtain ⟨specifier, hresolve⟩ := exists_resolve_of_moduleImports hmore hy
    have habs : Path.isAbsolute (Path.directory x) = true :=
      Path.isAbsolute_directory ((Path.isAbsolute_iff x).mpr (hx ▸ hs))
    have hy := spelled_of_resolve hpieces hext habs hresolve
    rwa [Path.leadingSlashes_directory, hx] at hy
  -- The search goes from file to file, and so the induction is on its way.
  induction h with
  | single hxy => exact hstep hstart hxy
  | tail _ hxy ih => exact hstep ih.leading hxy

end Analyzer

namespace Walker

variable {slashes : Text}

/-- The path of a listed place is spelled with the leading slashes of the root. -/
theorem spelled_filePath (hpieces : tree.top.Named NamePieces) (hs : slashes ≠ [])
    (hroot : Spelled slashes root) {place : Place}
    (hplace : place ∈ Locator.places tree settings root) :
    Spelled slashes (Locator.filePath root place) := by
  have hnames := Locator.named_of_mem_places hpieces hplace
  have hback : '\\' ∉ root := ((Path.toSlashes_eq_self_iff root).mp hroot.toSlashes_eq).1
  obtain ⟨names, hparts, rfl⟩ := hroot.exists_ofParts hs
  have hpath := Locator.filePath_eq hparts (List.append_ne_nil_of_left_ne_nil hs _) hback hnames
    (Locator.ne_nil_of_mem_places hplace)
  have hclean : '\\' ∉ Locator.filePath (Path.ofParts slashes names) place :=
    Text.not_mem_replace (by decide) _
  rw [hpath] at hclean ⊢
  exact Path.spelled_ofParts hs (hparts.append (Path.isName_of_mem_pieces hnames)) hclean

/-- What a visit takes in is spelled with the leading slashes of the root, if the visited file has
them. -/
theorem spelled_of_mem_taken (hpieces : tree.top.Named NamePieces)
    (hext : ∀ e ∈ settings.sourceExtensions, e.head? ≠ some '/') (hs : slashes ≠ [])
    (hroot : Spelled slashes root) {a : Artifact} (ha : Path.leadingSlashes a.path = slashes)
    (hback : '\\' ∉ a.path) {file : Path}
    (h : file ∈ Walk.taken settings (documentFiles tree settings root)
      (moduleFiles tree settings grammars root) a) :
    Spelled slashes file := by
  rcases Walk.mem_taken_iff.mp h with ⟨-, files, hfiles, hmem, -⟩ | ⟨-, files, hfiles, hmem⟩
  · obtain ⟨place, hplace, rfl⟩ := exists_place_of_documentFiles hfiles hmem
    exact spelled_filePath hpieces hs hroot hplace
  · obtain ⟨imports, himports, hsearches⟩ := searches_of_moduleFiles hfiles
    have hstart : Path.leadingSlashes (Path.toSlashes a.path) = slashes := by
      rw [Path.toSlashes_of_not_mem hback,
        Path.leadingSlashes_normalize ((Path.isAbsolute_iff _).mpr (ha ▸ hs)), ha]
    exact Analyzer.spelled_of_reached hpieces hext hs himports hstart
      (hsearches.reached file (Or.inl hmem))

/-- What a walk finds beside its entry is spelled with the leading slashes of the root, if the entry
has them. -/
theorem spelled_of_mem_dependencies (hpieces : tree.top.Named NamePieces)
    (hext : ∀ e ∈ settings.sourceExtensions, e.head? ≠ some '/') (hs : slashes ≠ [])
    (hroot : Spelled slashes root) {kind : Kind} (hkind : classify settings entry = some kind)
    (hslashes : Path.leadingSlashes entry = slashes) (hback : '\\' ∉ entry) {path : Path}
    (h : path ∈ ((new root settings grammars).walk tree entry).value.dependencies) :
    path = entry ∨ Spelled slashes path := by
  have hmet := ((settles_walk hkind).depends path (Text.mem_sortedSet.mp h)).1
  refine met_new_walk (P := fun x => x = entry ∨ Spelled slashes x)
    (fun a ha file hfile => Or.inr ?_) hkind (Or.inl rfl) hmet
  rcases ha with ha | ha
  · exact spelled_of_mem_taken hpieces hext hs hroot (ha ▸ hslashes) (ha ▸ hback) hfile
  · exact spelled_of_mem_taken hpieces hext hs hroot ha.leading
      ((Path.toSlashes_eq_self_iff _).mp ha.toSlashes_eq).1 hfile

end Walker

/-- The root of a run has leading slashes. -/
theorem Entry.leadingSlashes_rootOf_ne_nil (hcwd : Path.isAbsolute tree.cwd = true) (root : Path) :
    Path.leadingSlashes (rootOf tree root) ≠ [] :=
  (Path.isAbsolute_iff _).mp (isAbsolute_rootOf hcwd root)

/-- No two paths of a run lead to the same file, unless one is the entry and the other its normal
form. This is so if the accepted root is normal and the entry begins with the same slashes, no
source extension begins with a slash, and all pieces of the names in the tree between backslashes
are names. -/
theorem spelled_once_resolveImports (hcwd : Path.isAbsolute tree.cwd = true)
    (hpieces : tree.top.Named NamePieces)
    (hext : ∀ e ∈ settings.sourceExtensions, e.head? ≠ some '/') {accepted : Entry.Accepted}
    (haccepted : (Entry.resolve tree settings root entry).value = .ok accepted)
    (hroot : Path.normalize accepted.root = accepted.root)
    (hslashes : Path.leadingSlashes accepted.entry = Path.leadingSlashes accepted.root) :
    ∃ paths, (resolveImports tree settings grammars root entry).value = .ok paths ∧
      ((∀ p ∈ paths, ∀ q ∈ paths,
          Path.relative tree.cwd p accepted.root = Path.relative tree.cwd q accepted.root →
            p = q) ↔
        (Path.normalize accepted.entry ∈ paths →
          Path.normalize accepted.entry = accepted.entry)) := by
  obtain ⟨-, -, rfl, -, -, -, hsome⟩ := Entry.resolve_eq_ok_iff.mp haccepted
  obtain ⟨kind, hkind⟩ := Option.isSome_iff_exists.mp hsome
  have hs := Entry.leadingSlashes_rootOf_ne_nil hcwd root
  have hspelledRoot : Spelled _ (Entry.rootOf tree root) :=
    ⟨(Path.toSlashes_eq_self_iff _).mpr ⟨Path.not_mem_toSlashes _, hroot⟩, rfl⟩
  have hback : '\\' ∉ Entry.entryOf tree root entry := Path.not_mem_toSlashes _
  have hrun : (resolveImports tree settings grammars root entry).value
      = .ok ((Walker.new (Entry.rootOf tree root) settings grammars).walk tree
          (Entry.entryOf tree root entry)).value.dependencies := by
    rw [resolveImports_value, haccepted]
  obtain ⟨hrefused, -⟩ | ⟨p, hran⟩ := resolveImports_cases hrun
  · exact absurd haccepted (hrefused _)
  exact ⟨_, hrun, Path.forall_eq_of_relative_iff hs hs hspelledRoot hslashes hback hran.entry_mem
    fun path hpath => Walker.spelled_of_mem_dependencies hpieces hext hs hspelledRoot hkind hslashes
      hback hpath⟩

/-- A project with a document that imports itself, and a folder beside it. -/
def selfDocument : FileTree where
  top := .folder 0 [("p".toList, .folder 0
    [("d.mdx".toList, .file (Text.encode "import \"./d\"\nimport \"./x/a\"\n".toList) 0),
      ("x".toList, .folder 0 [("a.ts".toList, .file [] 0)])])]
  cwd := "/p".toList

/-- Written with slashes, a roundabout way to the document is normalized, and the document is listed
once. -/
theorem spelled_once_selfDocument :
    (resolveImports selfDocument {} (.builtIn []) "/p".toList "x/../d.mdx".toList).value
        = .ok ["/p/d.mdx".toList, "/p/x/a.ts".toList] ∧
      ∀ p ∈ ["/p/d.mdx".toList, "/p/x/a.ts".toList], ∀ q ∈ ["/p/d.mdx".toList, "/p/x/a.ts".toList],
        Path.relative "/p".toList p "/p".toList = Path.relative "/p".toList q "/p".toList →
          p = q := by
  have hrun : (resolveImports selfDocument {} (.builtIn []) "/p".toList "x/../d.mdx".toList).value
      = .ok ["/p/d.mdx".toList, "/p/x/a.ts".toList] := by decide +kernel
  have haccepted : (Entry.resolve selfDocument {} "/p".toList "x/../d.mdx".toList).value
      = .ok ⟨"/p".toList, "/p/d.mdx".toList⟩ := by decide +kernel
  obtain ⟨paths, hpaths, honce⟩ := @spelled_once_resolveImports selfDocument {} (.builtIn []) _ _
    (by decide +kernel) (by decide +kernel) (by decide +kernel) _ haccepted (by decide +kernel)
    (by decide +kernel)
  obtain rfl := Except.ok.inj (hrun.symm.trans hpaths)
  exact ⟨hrun, honce.mpr fun _ => by decide +kernel⟩

/-- Written with backslashes, the same way stays as it is until slashes take their place, and the
document is listed by two paths. -/
theorem exists_two_spellings_resolveImports :
    selfDocument.WellFormed ∧ selfDocument.NoLinks ∧ selfDocument.NoBackslash ∧
      (Entry.resolve selfDocument {} "/p".toList "x\\..\\d.mdx".toList).value
        = .ok ⟨"/p".toList, "/p/x/../d.mdx".toList⟩ ∧
      (resolveImports selfDocument {} (.builtIn []) "/p".toList "x\\..\\d.mdx".toList).value
        = .ok ["/p/d.mdx".toList, "/p/x/../d.mdx".toList, "/p/x/a.ts".toList] ∧
      Path.relative selfDocument.cwd "/p/d.mdx".toList "/p".toList
        = Path.relative selfDocument.cwd "/p/x/../d.mdx".toList "/p".toList := by
  refine ⟨⟨by decide +kernel, by decide +kernel, ["p".toList], _, _, by decide +kernel, rfl⟩, ?_⟩
  decide +kernel

end ImportClosure
