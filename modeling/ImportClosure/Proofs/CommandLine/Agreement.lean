import ImportClosure.Proofs.CommandLine.Outcome
import ImportClosure.Proofs.Project.Run

/-!
# `ImportClosure.Proofs.CommandLine.Agreement`: the command line and `resolveImports`

A run of the command line goes from the entry to the paths by itself, and writes them in one of
three ways. `run_agrees` says that it agrees with `resolveImports` on all of them: it ends with code
1 exactly if `resolveImports` refuses the arguments, and else what it writes reports the paths that
`resolveImports` answers with, each once, and the manifest where that is asked for.

`resolveImports_eq` ties the two searches, and `exists_outputLine` is what the three ways of
writing have in common. All three write something unless a path is to be dated and cannot be, which
`not_looksUpOutOfRange` excludes for a tree where all files and folders have dates.
-/

set_option autoImplicit false

namespace ImportClosure.CommandLine

variable {ε : Type} {surroundings : Surroundings ε} {argv : List Text}
  {arguments : Arguments} {settings : Settings}
  {found : Found} {root entry : Path}

/-! ### What is listed -/

/-- The paths that a run lists are those that `resolveImports` answers with. -/
theorem resolveImports_eq :
    (resolveImports surroundings.tree settings surroundings.grammars root entry).value
      = (findPaths surroundings settings root entry).value.map (·.paths) := by
  rw [resolveImports_value, findPaths_value]
  cases (Entry.resolve surroundings.tree settings root entry).value with
  | error refusal => cases hmissing : refusal.isMissingArgument <;> simp [hmissing, Except.map]
  | ok accepted => rfl

/-- What a run lists is in order, and comes with the root of the accepted entry. -/
structure Lists (surroundings : Surroundings ε) (settings : Settings) (root entry : Path)
    (found : Found) : Prop where
  sorted : Text.sortedSet found.paths = found.paths
  root_eq (path : Path) : found.root = some path ↔
    ∃ accepted, (Entry.resolve surroundings.tree settings root entry).value = .ok accepted ∧
      accepted.root = path
  of_none : found.root = none → found.paths = []

/-- A run lists nothing, or the dependencies of a walk under the root. -/
theorem lists_of_findPaths (h : (findPaths surroundings settings root entry).value = .ok found) :
    Lists surroundings settings root entry found := by
  rw [findPaths_value] at h
  cases hresolve : (Entry.resolve surroundings.tree settings root entry).value with
  | error refusal =>
      rw [hresolve] at h
      cases hmissing : refusal.isMissingArgument <;> simp [hmissing] at h
      subst h
      exact ⟨rfl, fun path => by simp [hresolve], fun _ => rfl⟩
  | ok accepted =>
      rw [hresolve] at h
      obtain rfl := Except.ok.inj h
      refine ⟨?_, fun path => by simp [hresolve], fun hnone => nomatch hnone⟩
      exact Text.sortedSet_eq_of_mem_iff fun path => Text.mem_sortedSet

/-- Where no entry is accepted there is no root. -/
theorem Lists.root_eq_none (h : Lists surroundings settings root entry found)
    (hrefused :
      ∀ accepted, (Entry.resolve surroundings.tree settings root entry).value ≠ .ok accepted) :
    found.root = none := by
  rw [Option.eq_none_iff_forall_ne_some]
  intro path hpath
  obtain ⟨accepted, haccepted, -⟩ := (h.root_eq path).mp hpath
  exact hrefused accepted haccepted

/-! ### What is reported -/

/-- The paths that a run reports: those that it has found, and the manifest if it is asked for and a
file. -/
def reported (tree : FileTree) (arguments : Arguments) (found : Found) : List Path :=
  match found.root with
  | none => []
  | some root => Report.withManifest tree found.paths root arguments.includeManifest

/-- A run adds the path to what it lists, as the manifest under the root of its entry. -/
def AddsManifest (surroundings : Surroundings ε) (settings : Settings) (arguments : Arguments)
    (path : Path) : Prop :=
  arguments.includeManifest = true ∧ ∃ accepted,
    (Entry.resolve surroundings.tree settings arguments.root arguments.entry).value = .ok accepted ∧
    path = Report.manifest accepted.root ∧ surroundings.tree.isFile path = true

/-- The manifest is added under the root that is found. -/
theorem Lists.addsManifest_iff
    (h : Lists surroundings settings arguments.root arguments.entry found) {path : Path} :
    AddsManifest surroundings settings arguments path ↔ ∃ root, found.root = some root ∧
      (arguments.includeManifest && surroundings.tree.isFile (Report.manifest root)) = true ∧
      path = Report.manifest root := by
  simp only [AddsManifest, h.root_eq, Bool.and_eq_true]
  constructor
  · rintro ⟨hwanted, accepted, haccepted, rfl, hfile⟩
    exact ⟨_, ⟨accepted, haccepted, rfl⟩, ⟨hwanted, hfile⟩, rfl⟩
  · rintro ⟨_, ⟨accepted, haccepted, rfl⟩, ⟨hwanted, hfile⟩, rfl⟩
    exact ⟨hwanted, accepted, haccepted, rfl, hfile⟩

/-- A run reports what it has found, and the manifest that it adds. -/
theorem Lists.mem_reported (h : Lists surroundings settings arguments.root arguments.entry found)
    {path : Path} :
    path ∈ reported surroundings.tree arguments found ↔
      path ∈ found.paths ∨ AddsManifest surroundings settings arguments path := by
  rw [h.addsManifest_iff, reported]
  cases hroot : found.root with
  | none => simp [h.of_none hroot]
  | some root =>
      simp only [Option.some.injEq, exists_eq_left', Report.withManifest]
      split
      · rename_i hadded
        rw [List.mem_cons, hadded, or_comm]
        simp
      · rename_i hadded
        simp [hadded]

/-! ### The line -/

/-- The paths that a run dates can be dated. -/
theorem not_isOutOfRange_of_asked {tree : FileTree} (h : ¬LooksUpOutOfRange tree arguments found)
    (hasked : arguments.withMtimes = true ∨ arguments.includeManifest = true)
    (hroot : found.root = some root) :
    ∀ path ∈ Report.withManifest tree found.paths root arguments.includeManifest,
      ¬Report.IsOutOfRange tree path :=
  fun path hpath hrange => h ⟨hasked, root, hroot, path, hpath, hrange⟩

/-- Where all files and folders have dates, and no name holds a NUL, every path that a run finds can
be dated. -/
theorem not_looksUpOutOfRange (hdated : Report.Dated surroundings.tree)
    (hnames : surroundings.tree.top.Named fun name => '\x00' ∉ name)
    (h : (findPaths surroundings settings root entry).value = .ok found) :
    ¬LooksUpOutOfRange surroundings.tree arguments found := by
  rintro ⟨-, top, -, path, hpath, hrange⟩
  refine hdated.not_isOutOfRange ?_ hrange
  have hpaths : ∀ path ∈ found.paths, '\x00' ∉ path := by
    have hanswer : (resolveImports surroundings.tree settings surroundings.grammars root
        entry).value = .ok found.paths := by
      rw [resolveImports_eq, h]
      rfl
    rcases resolveImports_cases hanswer with ⟨-, hnone⟩ | ⟨p, hran⟩
    · simp [hnone]
    · exact hran.nul_not_mem hnames
  -- The manifest is added only if it is a file.
  rw [Report.withManifest] at hpath
  split at hpath
  · rename_i hmanifest
    rcases List.mem_cons.mp hpath with rfl | hpath
    · exact FileTree.nul_not_mem_of_isFile (Bool.and_eq_true_iff.mp hmanifest).2
    · exact hpaths path hpath
  · exact hpaths path hpath

/-- Without an accepted entry the line is that of an empty list. -/
theorem outputLine_of_none (tree : FileTree) (arguments : Arguments) (hroot : found.root = none) :
    outputLine tree arguments found = .ok "[]\n".toList := by
  rw [outputLine, hroot]
  rfl

/-- Where all paths that are to be dated can be, every way of writing reports the same paths, each
once. Without instants the line is the list of them in ascending order. -/
theorem exists_outputLine {tree : FileTree} (h : ¬LooksUpOutOfRange tree arguments found) :
    ∃ output listed, outputLine tree arguments found = .ok output ∧
      Report.listed? output = some listed ∧
      listed.Perm (Text.sortedSet (reported tree arguments found)) ∧
      (arguments.withMtimes = false →
        listed = Text.sortedSet (reported tree arguments found) ∧
        output = Report.line (.list (listed.map .text))) := by
  cases hroot : found.root with
  | none =>
      rw [outputLine, reported, hroot]
      exact ⟨_, [], rfl, Report.listed?_ofPaths [], .refl _, fun _ => ⟨rfl, rfl⟩⟩
  | some root =>
      rw [outputLine_eq hroot, reported, hroot]
      dsimp only
      split
      · -- With instants the files come in the order of these, and not in that of their paths.
        rename_i hdates
        rw [Report.collect_eq (not_isOutOfRange_of_asked h (Or.inl hdates) hroot)]
        refine ⟨_, _, rfl, Report.listed?_ofFiles _, Report.perm_map_path_datedFiles _ _, ?_⟩
        intro hplain
        rw [hdates] at hplain
        contradiction
      split
      · -- With the manifest alone the files are collected as well, and their paths sorted again.
        rename_i hwanted
        have hrange := not_isOutOfRange_of_asked h (Or.inr hwanted) hroot
        rw [hwanted] at hrange ⊢
        rw [Report.collect_eq hrange]
        refine ⟨_, _, rfl, Report.listed?_ofPaths _, .of_eq ?_, fun _ => ⟨?_, rfl⟩⟩
        all_goals
          exact Text.sortedSet_eq_of_mem_iff fun path => by
            rw [(Report.perm_map_path_datedFiles _ _).mem_iff, Text.mem_sortedSet]
      · rename_i hplain
        rw [Report.withManifest, Bool.eq_false_iff.mpr hplain]
        exact ⟨_, _, rfl, Report.listed?_ofPaths _, .refl _, fun _ => ⟨rfl, rfl⟩⟩

/-! ### Runs -/

/-- The command line agrees with `resolveImports`. If no path is to be dated that cannot be, as
where all files and folders have dates (`not_looksUpOutOfRange`), and with a level of the log that
is not reserved, a run ends with code 1 exactly if `resolveImports` refuses the arguments. If
`resolveImports` answers with paths, the run ends with code 0 and a line that reports these paths,
each once, and the manifest of the project if that is asked for and a file. Where no instants are
asked for the line is the JSON list of the paths that it reports, and where no manifest is asked
for either, these are the paths of `resolveImports` in their order. For an entry that is not
accepted the list is empty. -/
theorem run_agrees (hparse : Arguments.parse argv = .ok arguments)
    (hsettings : surroundings.settings = .ok settings) (hlevel : ¬NamesReserved arguments settings)
    (hdates : ∀ found,
      (findPaths surroundings settings arguments.root arguments.entry).value = .ok found →
        ¬LooksUpOutOfRange surroundings.tree arguments found) :
    ((∃ output errors, surroundings.run argv = .ok ⟨1, output, errors⟩) ↔
      ∃ refusal, (resolveImports surroundings.tree settings surroundings.grammars arguments.root
        arguments.entry).value = .error refusal) ∧
    ∀ paths, (resolveImports surroundings.tree settings surroundings.grammars arguments.root
        arguments.entry).value = .ok paths →
      ∃ output errors listed, surroundings.run argv = .ok ⟨0, output, errors⟩ ∧
        Report.listed? output = some listed ∧ listed.Nodup ∧
        (∀ path, path ∈ listed ↔ path ∈ paths ∨ AddsManifest surroundings settings arguments path) ∧
        (arguments.withMtimes = false → output = Report.line (.list (listed.map .text))) ∧
        (arguments.withMtimes = false → arguments.includeManifest = false → listed = paths) ∧
        ((∀ accepted,
          (Entry.resolve surroundings.tree settings arguments.root arguments.entry).value
            ≠ .ok accepted) → output = "[]\n".toList) := by
  have hrun : surroundings.run argv = runWith surroundings arguments := by
    rw [Surroundings.run, hparse]
  obtain ⟨errors, heq⟩ := exists_runWith_eq hsettings hlevel
  rw [hrun, heq, resolveImports_eq]
  cases hfound : (findPaths surroundings settings arguments.root arguments.entry).value with
  | error refusal =>
      refine ⟨iff_of_true ⟨_, _, rfl⟩ ⟨refusal, rfl⟩, fun paths hpaths => ?_⟩
      contradiction
  | ok found =>
      have hlists := lists_of_findPaths hfound
      obtain ⟨output, listed, hline, hlisted, hperm, hplain⟩ :=
        exists_outputLine (hdates found hfound)
      simp only [hline, Except.mapError, bind, Except.bind]
      refine ⟨iff_of_false ?done ?answered, fun paths hpaths => ?_⟩
      case done =>
        rintro ⟨_, _, hcode⟩
        simp [pure, Except.pure] at hcode
      case answered =>
        rintro ⟨_, hrefusal⟩
        contradiction
      obtain rfl : found.paths = paths := Except.ok.inj hpaths
      refine ⟨output, errors, listed, rfl, hlisted, ?nodup, fun path => ?mem, fun h => (hplain h).2,
        fun hdates hmanifest => ?same, fun hrefused => ?empty⟩
      case nodup => exact hperm.nodup_iff.mpr (Text.pairwise_sortedSet _).nodup
      case mem => rw [hperm.mem_iff, Text.mem_sortedSet, hlists.mem_reported]
      case same =>
        have hsame : Text.sortedSet (reported surroundings.tree arguments found)
            = Text.sortedSet found.paths :=
          Text.sortedSet_eq_of_mem_iff fun path => by
            simp [hlists.mem_reported, AddsManifest, hmanifest]
        rw [(hplain hdates).1, hsame, hlists.sorted]
      case empty =>
        have hempty := outputLine_of_none surroundings.tree arguments (hlists.root_eq_none hrefused)
        exact Except.ok.inj (hline.symm.trans hempty)

/-- A host whose root has a manifest and a document that imports a module. -/
def manifestBeside : Host where
  tree := ⟨.folder 0 [("p".toList, .folder 0 [
    ("a.mdx".toList, .file (Text.encode "import './b'".toList) 0),
    ("b.ts".toList, .file [] 5000000000), ("package.json".toList, .file [] 3000000000)])],
    "/".toList⟩
  environment := []
  broken := []

/-- The arguments that ask for the document, with instants and the manifest. -/
def askAll : List Text :=
  ["/p".toList, "a.mdx".toList, "--with-mtimes".toList, "--include-manifest".toList]

/-- The manifest is listed beside the document and the module. -/
theorem run_manifestBeside :
    Arguments.parse askAll = .ok ⟨"/p".toList, "a.mdx".toList, true, true, none⟩ ∧
      manifestBeside.surroundings.settings = .ok {} ∧ Report.Dated manifestBeside.tree ∧
      ∃ output errors listed, run manifestBeside askAll = .ok ⟨0, output, errors⟩ ∧
        Report.listed? output = some listed ∧ listed.Nodup ∧
        "/p/b.ts".toList ∈ listed ∧ "/p/package.json".toList ∈ listed := by
  have hparse : Arguments.parse askAll
      = .ok ⟨"/p".toList, "a.mdx".toList, true, true, none⟩ := by decide
  have hsettings : manifestBeside.surroundings.settings = .ok {} := by decide +kernel
  have hlevel : ¬NamesReserved ⟨"/p".toList, "a.mdx".toList, true, true, none⟩ {} := by
    rintro (hname | hname)
    · exact absurd hname (by decide)
    · exact absurd hname (by decide)
  have hdated : Report.Dated manifestBeside.tree := by decide +kernel
  have hnames : manifestBeside.tree.top.Named fun name => '\x00' ∉ name := by decide +kernel
  have hpaths : (resolveImports manifestBeside.tree {} (.builtIn []) "/p".toList
      "a.mdx".toList).value = .ok ["/p/a.mdx".toList, "/p/b.ts".toList] := by decide +kernel
  obtain ⟨output, errors, listed, hrun, hlisted, hnodup, hmem, -⟩ :=
    (run_agrees hparse hsettings hlevel fun _ => not_looksUpOutOfRange hdated hnames).2 _ hpaths
  refine ⟨hparse, hsettings, hdated, output, errors, listed, hrun, hlisted, hnodup, ?_, ?_⟩
  · exact (hmem _).mpr (Or.inl (by decide))
  · refine (hmem _).mpr (Or.inr ⟨rfl, ⟨"/p".toList, "/p/a.mdx".toList⟩, ?_, ?_, ?_⟩)
    · decide +kernel
    · decide
    · decide +kernel

end ImportClosure.CommandLine
