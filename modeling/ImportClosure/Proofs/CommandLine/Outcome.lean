import ImportClosure.CommandLine.Run
import ImportClosure.Proofs.Entry
import ImportClosure.Proofs.Report

/-!
# `ImportClosure.Proofs.CommandLine.Outcome`: how runs end

`run_outcome` says how a run ends whose arguments can be read and whose settings can be made. It is
aborted for two reasons only: the name for the level of the log is reserved (`NamesReserved`), or
instants are looked up and a path cannot be dated (`LooksUpOutOfRange`). Otherwise it ends with code
1 and no output if the root or the entry is blank, and with code 0 and one line else.

The lemmas follow the parts of a run: the level of the log, the paths that are found, and the line
that is written for them.
-/

set_option autoImplicit false

namespace ImportClosure.CommandLine

variable {ε : Type} {surroundings : Surroundings ε} {argv : List Text}
  {arguments : Arguments} {settings : Settings}
  {found : Found}

/-! ### The level of the log -/

/-- The name for the level of the log is one of the two that are no levels. -/
def NamesReserved (arguments : Arguments) (settings : Settings) : Prop :=
  Text.upper (levelName arguments settings) = "BASIC_FORMAT".toList ∨
    Text.upper (levelName arguments settings) = "_STYLES".toList

/-- Every name is a threshold, apart from the reserved ones. -/
theorem Threshold.exists_ofName_eq_error_iff {name : Text} :
    (∃ reserved, Threshold.ofName name = .error reserved) ↔
      Text.upper name = "BASIC_FORMAT".toList ∨ Text.upper name = "_STYLES".toList := by
  rw [ofName]
  by_cases hformat : Text.upper name = "BASIC_FORMAT".toList
  · rw [hformat]
    exact iff_of_true ⟨.format, rfl⟩ (Or.inl rfl)
  by_cases hstyles : Text.upper name = "_STYLES".toList
  · rw [hstyles]
    exact iff_of_true ⟨.styles, rfl⟩ (Or.inr rfl)
  have hnone : reserved.lookup (Text.upper name) = none := by
    rw [List.lookup_eq_none_iff, reserved]
    simp only [List.mem_cons, List.not_mem_nil, or_false, forall_eq_or_imp, forall_eq,
      bne_iff_ne, ne_eq]
    exact ⟨hformat, hstyles⟩
  rw [hnone]
  exact iff_of_false (fun ⟨_, herror⟩ => by contradiction) (not_or.mpr ⟨hformat, hstyles⟩)

/-! ### What is listed -/

/-- Instants are looked up, and one of the paths cannot be dated. -/
def LooksUpOutOfRange (tree : FileTree) (arguments : Arguments) (found : Found) : Prop :=
  (arguments.withMtimes = true ∨ arguments.includeManifest = true) ∧
    ∃ root, found.root = some root ∧
      ∃ path ∈ Report.withManifest tree found.paths root arguments.includeManifest,
        Report.IsOutOfRange tree path

/-- A function of an answer fails to be there exactly if the answer does. -/
theorem exists_map_eq_error_iff {ε α β : Type} {x : Except ε α} {f : α → β} :
    (∃ error, x.map f = .error error) ↔ ∃ error, x = .error error := by
  cases x with
  | error e => exact iff_of_true ⟨e, rfl⟩ ⟨e, rfl⟩
  | ok a => exact iff_of_false (fun ⟨_, h⟩ => by contradiction) (fun ⟨_, h⟩ => by contradiction)

/-- A function of an answer is one of an answer that is there. -/
theorem exists_of_map_eq_ok {ε α β : Type} {x : Except ε α} {f : α → β} {b : β}
    (h : x.map f = .ok b) : ∃ a, x = .ok a ∧ f a = b := by
  cases x with
  | error e => contradiction
  | ok a => exact ⟨a, rfl, Except.ok.inj h⟩

/-- What is found is written as a list of paths or of files. -/
theorem outputLine_eq {tree : FileTree} {root : Path} (hroot : found.root = some root) :
    outputLine tree arguments found
      = if arguments.withMtimes then
          (Report.collect tree found.paths root arguments.includeManifest).map Report.ofFiles
        else if arguments.includeManifest then
          (Report.collect tree found.paths root true).map fun files =>
            Report.ofPaths (files.map (·.path))
        else .ok (Report.ofPaths found.paths) := by
  rw [outputLine, hroot]
  rfl

/-- What is found can be written as a line unless one of its paths is to be dated and cannot be. -/
theorem exists_outputLine_eq_error_iff {tree : FileTree} :
    (∃ error, outputLine tree arguments found = .error error) ↔
      LooksUpOutOfRange tree arguments found := by
  cases hroot : found.root with
  | none =>
      rw [outputLine, LooksUpOutOfRange, hroot]
      refine iff_of_false (fun ⟨_, herror⟩ => by contradiction) ?_
      rintro ⟨-, _, hroot, -⟩
      contradiction
  | some root =>
      rw [outputLine_eq hroot, LooksUpOutOfRange, hroot]
      simp only [Option.some.injEq, exists_eq_left', ← Report.exists_collect_eq_error_iff]
      cases arguments.withMtimes with
      | true => simp [exists_map_eq_error_iff]
      | false =>
          cases arguments.includeManifest with
          | true => simp [exists_map_eq_error_iff]
          | false => simp

/-- What is written for what is found is one line. -/
theorem isArrayLine_of_outputLine {tree : FileTree} {output : Text}
    (h : outputLine tree arguments found = .ok output) : Report.IsArrayLine output := by
  cases hroot : found.root with
  | none =>
      rw [outputLine, hroot] at h
      obtain rfl := Except.ok.inj h
      exact Report.isArrayLine_ofPaths []
  | some root =>
      rw [outputLine_eq hroot] at h
      split at h
      · obtain ⟨files, -, rfl⟩ := exists_of_map_eq_ok h
        exact Report.isArrayLine_ofFiles files
      split at h
      · obtain ⟨files, -, rfl⟩ := exists_of_map_eq_ok h
        exact Report.isArrayLine_ofPaths _
      · obtain rfl := Except.ok.inj h
        exact Report.isArrayLine_ofPaths found.paths

/-- What a run lists, without the log. -/
theorem findPaths_value {root entry : Path} :
    (findPaths surroundings settings root entry).value
      = match (Entry.resolve surroundings.tree settings root entry).value with
        | .error refusal => if refusal.isMissingArgument then .error refusal else .ok ⟨none, []⟩
        | .ok accepted => .ok ⟨some accepted.root,
          ((Walker.new accepted.root settings surroundings.grammars).walk surroundings.tree
            accepted.entry).value.dependencies⟩ := by
  rw [findPaths, Traced.value_bind]
  cases (Entry.resolve surroundings.tree settings root entry).value with
  | error refusal => cases hmissing : refusal.isMissingArgument <;> simp [hmissing]
  | ok accepted => rfl

/-- Blank arguments are refused. -/
theorem exists_findPaths_eq_error (surroundings : Surroundings ε) (settings : Settings)
    {root entry : Path}
    (h : Text.allBlank root = true ∨ Text.allBlank entry = true) :
    ∃ refusal, (findPaths surroundings settings root entry).value = .error refusal := by
  obtain ⟨refusal, hmissing, hrefusal⟩ :=
    Entry.isMissingArgument_of_allBlank surroundings.tree settings h
  exact ⟨refusal, by simp [findPaths_value, hrefusal, hmissing]⟩

/-- Arguments that are not blank are accepted, even if there is nothing to list. -/
theorem exists_findPaths_eq_ok {root entry : Path} (hroot : Text.allBlank root = false)
    (hentry : Text.allBlank entry = false) :
    ∃ found, (findPaths surroundings settings root entry).value = .ok found := by
  rw [findPaths_value]
  cases hresolve : (Entry.resolve surroundings.tree settings root entry).value with
  | error refusal =>
      have hpresent := Entry.isMissingArgument_of_resolve hroot hentry hresolve
      exact ⟨⟨none, []⟩, by simp [hpresent]⟩
  | ok accepted => exact ⟨_, rfl⟩

/-! ### Runs -/

/-- With a reserved name for the level of the log a run is aborted. -/
theorem exists_runWith_eq_level (hsettings : surroundings.settings = .ok settings)
    (hlevel : NamesReserved arguments settings) :
    ∃ name, runWith surroundings arguments = .error (.level name) := by
  obtain ⟨name, hname⟩ := Threshold.exists_ofName_eq_error_iff.mpr hlevel
  refine ⟨name, ?_⟩
  rw [runWith, hsettings]
  simp [Except.mapError, hname, bind, Except.bind]

/-- With any other name a run depends on what it finds. -/
theorem exists_runWith_eq (hsettings : surroundings.settings = .ok settings)
    (hlevel : ¬NamesReserved arguments settings) :
    ∃ errors, runWith surroundings arguments
      = match (findPaths surroundings settings arguments.root arguments.entry).value with
        | .error refusal => .ok ⟨1, [], errors ++ refusalLine refusal⟩
        | .ok found => do
          let output ← (outputLine surroundings.tree arguments found).mapError Abort.instant
          return ⟨0, output, errors⟩ := by
  cases hname : Threshold.ofName (levelName arguments settings) with
  | error name => exact absurd (Threshold.exists_ofName_eq_error_iff.mp ⟨name, hname⟩) hlevel
  | ok threshold =>
      refine ⟨surroundings.complaints ++ logLines threshold
        (findPaths surroundings settings arguments.root arguments.entry).log, ?_⟩
      rw [runWith, hsettings]
      simp only [Except.mapError, hname, bind, Except.bind]
      rfl

/-- How a run ends whose arguments can be read and whose settings can be made. If a reserved name is
given for the level of the log it is aborted. Otherwise it ends with code 1 and no output if the
root or the entry is blank, and else with code 0 and one line that is a JSON array, unless instants
are to be looked up and one of the paths cannot be dated. -/
theorem run_outcome (hparse : Arguments.parse argv = .ok arguments)
    (hsettings : surroundings.settings = .ok settings) :
    (NamesReserved arguments settings → ∃ name, surroundings.run argv = .error (.level name)) ∧
    (¬NamesReserved arguments settings →
      (Text.allBlank arguments.root = true ∨ Text.allBlank arguments.entry = true →
        ∃ errors, surroundings.run argv = .ok ⟨1, [], errors⟩) ∧
      (Text.allBlank arguments.root = false → Text.allBlank arguments.entry = false →
        ∃ found,
          (findPaths surroundings settings arguments.root arguments.entry).value = .ok found ∧
          (LooksUpOutOfRange surroundings.tree arguments found →
            ∃ error, surroundings.run argv = .error (.instant error)) ∧
          (¬LooksUpOutOfRange surroundings.tree arguments found →
            ∃ output errors, surroundings.run argv = .ok ⟨0, output, errors⟩ ∧
              Report.IsArrayLine output))) := by
  have hrun : surroundings.run argv = runWith surroundings arguments := by
    rw [Surroundings.run, hparse]
  rw [hrun]
  refine ⟨exists_runWith_eq_level hsettings, fun hlevel => ⟨fun hblank => ?blank, ?given⟩⟩
  case blank =>
    obtain ⟨errors, heq⟩ := exists_runWith_eq hsettings hlevel
    obtain ⟨refusal, hrefusal⟩ := exists_findPaths_eq_error surroundings settings hblank
    rw [heq, hrefusal]
    exact ⟨_, rfl⟩
  case given =>
    intro hroot hentry
    obtain ⟨errors, heq⟩ := exists_runWith_eq hsettings hlevel
    obtain ⟨found, hfound⟩ := exists_findPaths_eq_ok hroot hentry
    refine ⟨found, hfound, fun hrange => ?_, fun hdates => ?_⟩
    · obtain ⟨error, herror⟩ := exists_outputLine_eq_error_iff.mpr hrange
      rw [heq, hfound]
      exact ⟨error, by simp [herror, Except.mapError, bind, Except.bind]⟩
    · cases hline : outputLine surroundings.tree arguments found with
      | error error => exact absurd (exists_outputLine_eq_error_iff.mp ⟨error, hline⟩) hdates
      | ok output =>
          rw [heq, hfound]
          refine ⟨output, errors, ?_, isArrayLine_of_outputLine hline⟩
          simp only [hline, Except.mapError, bind, Except.bind]
          rfl

/-- A host with one document, without text and last changed at an instant in nanoseconds. -/
def oneDocument (modified : Int) : Host where
  tree := ⟨.folder 0 [("p".toList, .folder 0 [("a.mdx".toList, .file [] modified)])], "/".toList⟩
  environment := []
  broken := []

/-- The arguments that ask for the document and its instant. -/
def askInstant : List Text := ["/p".toList, "a.mdx".toList, "--with-mtimes".toList]

/-- A document that was last changed at the epoch is listed. -/
theorem run_oneDocument :
    Arguments.parse askInstant = .ok ⟨"/p".toList, "a.mdx".toList, false, true, none⟩ ∧
      (oneDocument 0).surroundings.settings = .ok {} ∧
      ∃ output errors, run (oneDocument 0) askInstant = .ok ⟨0, output, errors⟩ ∧
        Report.IsArrayLine output := by
  have hparse : Arguments.parse askInstant
      = .ok ⟨"/p".toList, "a.mdx".toList, false, true, none⟩ := by decide
  have hsettings : (oneDocument 0).surroundings.settings = .ok {} := by decide +kernel
  have hfound : (findPaths (oneDocument 0).surroundings {} "/p".toList "a.mdx".toList).value
      = .ok ⟨some "/p".toList, ["/p/a.mdx".toList]⟩ := by decide +kernel
  have hlevel : ¬NamesReserved ⟨"/p".toList, "a.mdx".toList, false, true, none⟩ {} := by
    rintro (hname | hname)
    · exact absurd hname (by decide)
    · exact absurd hname (by decide)
  obtain ⟨found, hvalue, -, hline⟩ :=
    ((run_outcome hparse hsettings).2 hlevel).2 (by decide) (by decide)
  obtain rfl := Except.ok.inj (hfound.symm.trans hvalue)
  refine ⟨hparse, hsettings, hline ?_⟩
  rintro ⟨-, root, hroot, path, hpath, hinstant⟩
  obtain rfl := Option.some.inj hroot
  obtain rfl := List.mem_singleton.mp hpath
  exact absurd hinstant (by decide +kernel)

/-- With a reserved name for the level of the log the same document is not listed, nor is one that
was last changed when the year 10000 began. -/
theorem exists_run_eq_error :
    run (oneDocument 0) ["/p".toList, "a.mdx".toList, "--log-level".toList, "BASIC_FORMAT".toList]
        = .error (.level .format) ∧
      run (oneDocument 253402300800000000000) askInstant
        = .error (.instant (.year ⟨253402300800000000⟩)) := by
  decide +kernel

end ImportClosure.CommandLine
