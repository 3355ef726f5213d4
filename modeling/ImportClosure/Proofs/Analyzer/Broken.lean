import ImportClosure.Proofs.Analyzer.Loader

/-!
# `ImportClosure.Proofs.Analyzer.Broken`: a broken grammar is reported once and stays broken

`Analyzes` lists the modules that a call is about: the one that is named, and for `reachable` also
those that are found on the way. A module of a broken grammar fails wherever it is analyzed.
`Raises` tells how that shows: as the reply, or as an entry of the log about a module that is found
and followed no further (`serve_raises`).

In a sequence of calls each grammar is tried once at most. The log has one error for a broken
grammar if some readable module of its language was analyzed, and none otherwise. The modules of the
other languages have the specifiers and imports that they have where no grammar is broken. The main
statement is `serveAll_broken`.
-/

set_option autoImplicit false

namespace ImportClosure.Analyzer

variable {tree : FileTree} {settings : Settings} {grammars : Grammars}
  {root path : Path} {analyzer : Analyzer} {language : Syntax.Language} {reason : Text}
  {reply : Reply}

/-! ### What a call analyzes -/

/-- The module at a path is analyzed for a call with this reply. -/
inductive Analyzes (settings : Settings) : Call → Reply → Path → Prop where
  | importSpecifiers (path : Path) (reply : Reply) :
      Analyzes settings (.importSpecifiers path) reply path
  | directImports (path : Path) (reply : Reply) :
      Analyzes settings (.directImports path) reply path
  /-- A module that is followed is analyzed itself. -/
  | input (path : Path) (reply : Reply) :
      Analyzes settings (.reachable path) reply (Path.toSlashes path)
  /-- So is every module that is found. -/
  | nested (path : Path) {found : List Path} {file : Path} (hfile : file ∈ found)
      (hkind : classify settings file = some .module) :
      Analyzes settings (.reachable path) (.files (.ok found)) file

/-- A call analyzes a module of the language that can be read. -/
def Touches (tree : FileTree) (settings : Settings) (call : Call) (reply : Reply)
    (language : Syntax.Language) : Prop :=
  ∃ path, Analyzes settings call reply path ∧ IsReadable tree language path

/-- The specifiers of a module are read off it alone. -/
theorem touches_importSpecifiers_iff :
    Touches tree settings (.importSpecifiers path) reply language ↔
      IsReadable tree language path := by
  constructor
  · rintro ⟨_, ⟨⟩, hreadable⟩
    exact hreadable
  · intro hreadable
    exact ⟨path, .importSpecifiers path reply, hreadable⟩

/-- The imports of a module are read off it alone. -/
theorem touches_directImports_iff :
    Touches tree settings (.directImports path) reply language ↔ IsReadable tree language path := by
  constructor
  · rintro ⟨_, ⟨⟩, hreadable⟩
    exact hreadable
  · intro hreadable
    exact ⟨path, .directImports path reply, hreadable⟩

/-- A module that is followed is read, and those that are found. -/
theorem touches_reachable_iff {answer : Except Failure (List Path)} :
    Touches tree settings (.reachable path) (.files answer) language ↔
      IsReadable tree language (Path.toSlashes path) ∨ ∃ found, answer = .ok found ∧
        ∃ file ∈ found, classify settings file = some .module ∧ IsReadable tree language file := by
  constructor
  · rintro ⟨_, hanalyzes, hreadable⟩
    cases hanalyzes with
    | input => exact Or.inl hreadable
    | nested path hfile hkind => exact Or.inr ⟨_, rfl, _, hfile, hkind, hreadable⟩
  · rintro (hreadable | ⟨found, rfl, file, hfile, hkind, hreadable⟩)
    · exact ⟨_, .input path _, hreadable⟩
    · exact ⟨file, .nested path hfile hkind, hreadable⟩

/-- A specifier is resolved without reading a module. -/
theorem not_touches_resolve (specifier : Text) (directory : Path) :
    ¬Touches tree settings (.resolve specifier directory) reply language := by
  rintro ⟨_, ⟨⟩, -⟩

/-- A call touches the languages of the readable modules that it analyzes. -/
theorem serve_loads (h : Faithful tree settings grammars root analyzer) (call : Call) :
    Loads grammars (Touches tree settings call (analyzer.serve tree call).value.1) analyzer
      (analyzer.serve tree call).log (analyzer.serve tree call).value.2 := by
  cases call with
  | importSpecifiers path =>
      refine ((importSpecifiers_loads h path).append_quiet rfl rfl).congr fun language => ?_
      exact touches_importSpecifiers_iff
  | directImports path =>
      refine ((directImports_loads h path).append_quiet rfl rfl).congr fun language => ?_
      exact touches_directImports_iff
  | reachable path =>
      refine ((reachable_loads h path).1.append_quiet rfl rfl).congr fun language => ?_
      exact touches_reachable_iff
  | resolve specifier directory =>
      refine .quiet rfl rfl ?_
      intro language reason hbroken htouches
      exact absurd htouches (not_touches_resolve specifier directory)

/-- Some call of a sequence with these replies analyzes a module of the language that can be
read. -/
def TouchesAny (tree : FileTree) (settings : Settings) (calls : List Call) (replies : List Reply)
    (language : Syntax.Language) : Prop :=
  ∃ call reply, (call, reply) ∈ calls.zip replies ∧ Touches tree settings call reply language

/-- A sequence of calls touches the languages that one of them touches. -/
theorem serveAll_loads (h : Faithful tree settings grammars root analyzer) (calls : List Call) :
    Loads grammars (TouchesAny tree settings calls (serveAll tree calls analyzer).value.1) analyzer
      (serveAll tree calls analyzer).log (serveAll tree calls analyzer).value.2 := by
  induction calls generalizing analyzer with
  | nil =>
      refine .quiet rfl rfl ?_
      rintro language reason - ⟨call, reply, hmem, -⟩
      contradiction
  | cons call calls ih =>
      have hfirst := serve_loads h call
      have hothers := ih (serve_value h call).2
      have hend := hothers.append_quiet (show errors [] = [] from rfl) rfl
      refine hfirst.trans hend fun language => ?_
      show (∃ c r, (c, r) ∈ (call, _) :: calls.zip _ ∧ _) ↔ _
      constructor
      · rintro ⟨c, r, hmem, htouches⟩
        rcases List.mem_cons.mp hmem with heq | hmem
        · obtain ⟨rfl, rfl⟩ := Prod.mk.inj heq
          exact Or.inl htouches
        · exact Or.inr ⟨c, r, hmem, htouches⟩
      · rintro (htouches | ⟨c, r, hmem, htouches⟩)
        · exact ⟨call, _, List.mem_cons_self, htouches⟩
        · exact ⟨c, r, List.mem_cons_of_mem _ hmem, htouches⟩

/-! ### How a failure shows -/

/-- A call with this reply and this log tells of the failure of a module. -/
inductive Raises (failure : Failure) : Call → Reply → List LogEntry → Prop where
  | importSpecifiers (log : List LogEntry) :
      Raises failure (.importSpecifiers failure.path) (.specifiers (.error failure)) log
  | directImports (log : List LogEntry) :
      Raises failure (.directImports failure.path) (.files (.error failure)) log
  | input {path : Path} (hpath : Path.toSlashes path = failure.path) (log : List LogEntry) :
      Raises failure (.reachable path) (.files (.error failure)) log
  /-- A module that is found is an end of the search. -/
  | nested (path : Path) {found : List Path} {log : List LogEntry} (hfound : failure.path ∈ found)
      (hnote : leafNote failure.path failure ∈ log) :
      Raises failure (.reachable path) (.files (.ok found)) log

/-- A readable module of a broken grammar fails in each call that it is analyzed for. -/
theorem serve_raises (h : Faithful tree settings grammars root analyzer)
    (hbroken : grammars.broken.lookup language = some reason)
    (hreadable : IsReadable tree language path)
    {call : Call} (hanalyzes : Analyzes settings call (analyzer.serve tree call).value.1 path) :
    Raises ⟨.brokenGrammar language reason, path⟩ call (analyzer.serve tree call).value.1
      (analyzer.serve tree call).log := by
  have himports : moduleImports tree settings grammars root path
      = .error ⟨.brokenGrammar language reason, path⟩ := moduleImports_of_broken hbroken hreadable
  generalize hreply : (analyzer.serve tree call).value.1 = reply at hanalyzes
  cases hanalyzes with
  | importSpecifiers =>
      have hvalue := (importSpecifiers_value h path).1
      rw [moduleSpecifiers_of_broken hbroken hreadable] at hvalue
      rw [← hreply, show (analyzer.serve tree (.importSpecifiers path)).value.1 = .specifiers _
        from congrArg Reply.specifiers hvalue]
      exact .importSpecifiers _
  | directImports =>
      have hvalue := (directImports_value h path).1
      rw [himports] at hvalue
      rw [← hreply, show (analyzer.serve tree (.directImports path)).value.1 = .files _
        from congrArg Reply.files hvalue]
      exact .directImports _
  | input path =>
      have hvalue := (reachable_value h path).1
      rw [himports] at hvalue
      rw [← hreply, show (analyzer.serve tree (.reachable path)).value.1 = .files _
        from congrArg Reply.files hvalue]
      exact .input rfl _
  | @nested start found file hfile hkind =>
      have hfound : (analyzer.reachable tree start).value.1 = .ok found := Reply.files.inj hreply
      have hnote := (reachable_loads h start).2 found hfound path hfile _ hkind himports
      exact .nested start hfile (List.mem_append_left _ hnote)

/-- The errors about the broken grammars of some languages. -/
theorem exists_failed_eq (grammars : Grammars) {languages : List Syntax.Language}
    (hnodup : languages.Nodup) :
    ∃ failed : List (Syntax.Language × Text), (failed.map Prod.fst).Nodup ∧
      (languages.filterMap fun language =>
        (grammars.broken.lookup language).map (loadNote language))
        = failed.map (fun entry => loadNote entry.1 entry.2) ∧
      ∀ language reason, (language, reason) ∈ failed ↔
        grammars.broken.lookup language = some reason ∧ language ∈ languages := by
  refine ⟨languages.filterMap fun language =>
    (grammars.broken.lookup language).map (language, ·), ?_, ?_, ?_⟩
  · rw [List.map_filterMap]
    refine hnodup.filterMap fun one two language hone htwo => ?_
    simp only [Option.map_map, Option.mem_def, Option.map_eq_some_iff, Function.comp] at hone htwo
    obtain ⟨_, -, rfl⟩ := hone
    obtain ⟨_, -, rfl⟩ := htwo
    rfl
  · rw [List.map_filterMap]
    simp only [Option.map_map, Function.comp_def]
  · intro language reason
    simp only [List.mem_filterMap, Option.map_eq_some_iff, Prod.mk.injEq]
    constructor
    · rintro ⟨other, hmem, _, hreason, rfl, rfl⟩
      exact ⟨hreason, hmem⟩
    · rintro ⟨hreason, hmem⟩
      exact ⟨language, hmem, reason, hreason, rfl, rfl⟩

/-- Broken grammars of other languages do not show in the specifiers of a module. -/
theorem moduleSpecifiers_of_whole (hwhole : ∀ language, Syntax.Language.ofExtension?
      (Text.lower (Path.extension path)) = some language → grammars.broken.lookup language = none) :
    moduleSpecifiers tree settings grammars path =
      moduleSpecifiers tree settings grammars.whole path := by
  simp only [moduleSpecifiers]
  cases hlanguage : Syntax.Language.ofExtension? (Text.lower (Path.extension path)) with
  | none => rfl
  | some language =>
      cases tree.read path with
      | error trouble => rfl
      | ok bytes =>
          simp only [hwhole language hlanguage, Grammars.broken_whole, List.lookup_nil]
          rfl

/-- In a sequence of calls no grammar is tried twice, and none that was tried is asked for again:
later calls are answered and logged the same, whatever the loader would say of it. There is one
error in the log for each broken grammar of which a readable module was analyzed, and no other
error. After any calls such a module fails in each call that it is analyzed for, and always with the
same words. The specifiers and imports of the modules of other languages are those that they have
after the same calls where no grammar is broken. -/
theorem serveAll_broken (tree : FileTree) (settings : Settings)
    (grammars : Grammars) (root : Path) (calls : List Call) :
    (used tree settings grammars root calls).tried.Nodup ∧
    (∀ later, AgreesUntried (used tree settings grammars root calls) later → ∀ more,
      (serveAll tree more ((used tree settings grammars root calls).withBroken later)).value.1
          = (serveAll tree more (used tree settings grammars root calls)).value.1 ∧
        (serveAll tree more ((used tree settings grammars root calls).withBroken later)).log
          = (serveAll tree more (used tree settings grammars root calls)).log) ∧
    (∃ failed : List (Syntax.Language × Text), (failed.map Prod.fst).Nodup ∧
      errors (serveAll tree calls (new root settings grammars)).log
        = failed.map (fun entry => loadNote entry.1 entry.2) ∧
      ∀ language reason, (language, reason) ∈ failed ↔
        grammars.broken.lookup language = some reason ∧
        TouchesAny tree settings calls (serveAll tree calls (new root settings grammars)).value.1
          language) ∧
    (∀ language reason, grammars.broken.lookup language = some reason → ∃ message, ∀ path call,
      IsReadable tree language path →
      Analyzes settings call
        ((used tree settings grammars root calls).serve tree call).value.1 path →
      ∃ failure, failure.path = path ∧ failure.message = message ∧
        Raises failure call ((used tree settings grammars root calls).serve tree call).value.1
          ((used tree settings grammars root calls).serve tree call).log) ∧
    ∀ path, (∀ language, Syntax.Language.ofExtension? (Text.lower (Path.extension path))
        = some language → grammars.broken.lookup language = none) →
      ((used tree settings grammars root calls).importSpecifiers tree path).value.1
          = ((used tree settings grammars.whole root calls).importSpecifiers tree path).value.1 ∧
        ((used tree settings grammars root calls).directImports tree path).value.1
          = ((used tree settings grammars.whole root calls).directImports tree path).value.1 := by
  have hused : Faithful tree settings grammars root (used tree settings grammars root calls) :=
    faithful_used calls
  have hwhole :
      Faithful tree settings grammars.whole root (used tree settings grammars.whole root calls) :=
    faithful_used calls
  have hloads := serveAll_loads (faithful_new tree settings grammars root) calls
  obtain ⟨fresh, hnodup, -, htried, herrors⟩ := hloads.fresh
  have htried' : (used tree settings grammars root calls).tried = fresh :=
    htried.trans (List.append_nil fresh)
  refine ⟨?_, ?_, ?_, ?_, ?_⟩
  · rwa [htried']
  · intro later hlater more
    have halike : Alike later (serveAll tree more _) (serveAll tree more _) :=
      serveAll_alike hlater more
    exact ⟨halike.answer, halike.log⟩
  · obtain ⟨failed, hfailed, hmap, hmem⟩ :=
      exists_failed_eq grammars (List.nodup_reverse.mpr hnodup)
    refine ⟨failed, hfailed, herrors.trans hmap, fun language reason => ?_⟩
    rw [hmem, List.mem_reverse]
    refine and_congr_right fun hbroken => ?_
    have hiff := hloads.mem_tried_iff language reason hbroken
    rw [htried, List.mem_append] at hiff
    simpa [tried, new] using hiff
  · intro language reason hbroken
    refine ⟨Component.moduleGraph.report (brokenWords language reason), ?_⟩
    intro path call hreadable hanalyzes
    exact ⟨_, rfl, rfl, serve_raises hused hbroken hreadable hanalyzes⟩
  · intro path hpath
    have hsame : moduleSpecifiers tree settings grammars path =
        moduleSpecifiers tree settings grammars.whole path :=
      moduleSpecifiers_of_whole hpath
    constructor
    · rw [(importSpecifiers_value hused path).1, (importSpecifiers_value hwhole path).1, hsame]
    · rw [(directImports_value hused path).1, (directImports_value hwhole path).1, moduleImports,
        moduleImports, hsame]

end ImportClosure.Analyzer
