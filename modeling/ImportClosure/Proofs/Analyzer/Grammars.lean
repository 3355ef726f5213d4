import ImportClosure.Proofs.Analyzer.Calls

/-!
# `ImportClosure.Proofs.Analyzer.Grammars`: which grammars are loaded, and what the log tells of it

`Analyzer.tried` lists the languages whose grammar an analyzer has loaded or could not load. `Loads`
says what a computation does to this list and to the log: the languages that come into it are new
ones, the log has one error for each of them whose grammar is broken and no other error, and the
broken ones among them are those that were touched. A computation touches a language if it analyzes
a module of the language that can be read (`IsReadable`). Each function of the analyzer has its
lemma, from `load_loads` to `reachable_loads`.
-/

set_option autoImplicit false

namespace ImportClosure.Analyzer

variable {tree : FileTree} {settings : Settings} {grammars : Grammars}
  {root path start : Path} {analyzer before middle after : Analyzer} {log more : List LogEntry}
  {language : Syntax.Language} {reason : Text}

/-- The languages whose grammar was loaded, or was found to be broken. -/
def tried (analyzer : Analyzer) : List Syntax.Language := analyzer.loaded.map Prod.fst

/-- There is a module of the language at the path, and it can be read. -/
def IsReadable (tree : FileTree) (language : Syntax.Language) (path : Path) : Prop :=
  Syntax.Language.ofExtension? (Text.lower (Path.extension path)) = some language ∧
    ∃ bytes, tree.read path = .ok bytes

/-- The entry about a grammar that cannot be loaded. -/
def loadNote (language : Syntax.Language) (reason : Text) : LogEntry :=
  ⟨Component.moduleGraph.logger, .error,
    brokenWords language reason ++ "; ".toList ++ language.name ++
      " modules will report no dependencies".toList⟩

/-- The entry about a module that is found and cannot be analyzed. -/
def leafNote (path : Path) (failure : Failure) : LogEntry :=
  ⟨Component.moduleGraph.logger, .warning,
    "Treating ".toList ++ path ++ " as a leaf: ".toList ++ failure.message⟩

/-- The errors in a log. -/
def errors (log : List LogEntry) : List LogEntry := log.filter fun entry => entry.level = .error

/-- The errors of two logs are those of one and then of the other. -/
theorem errors_append (log more : List LogEntry) :
    errors (log ++ more) = errors log ++ errors more :=
  List.filter_append log more

/-- A language that was not tried has no outcome. -/
theorem lookup_loaded_eq_none_iff : analyzer.loaded.lookup language = none ↔
    language ∉ analyzer.tried := by
  rw [List.lookup_eq_none_iff, tried, List.mem_map]
  constructor
  · rintro h ⟨entry, hentry, rfl⟩
    simpa using h entry hentry
  · intro h entry hentry
    rw [bne_iff_ne]
    rintro rfl
    exact h ⟨entry, hentry, rfl⟩

/-! ### Modules of a broken grammar -/

/-- A module of a broken grammar has no specifiers. -/
theorem moduleSpecifiers_of_broken (hbroken : grammars.broken.lookup language = some reason)
    (hpath : IsReadable tree language path) :
    moduleSpecifiers tree settings grammars path =
      .error ⟨.brokenGrammar language reason, path⟩ := by
  obtain ⟨hlanguage, bytes, hread⟩ := hpath
  simp only [moduleSpecifiers, hlanguage, hread, hbroken]

/-- A module of a broken grammar has no imports. -/
theorem moduleImports_of_broken (hbroken : grammars.broken.lookup language = some reason)
    (hpath : IsReadable tree language path) :
    moduleImports tree settings grammars root path
      = .error ⟨.brokenGrammar language reason, path⟩ := by
  rw [moduleImports, moduleSpecifiers_of_broken hbroken hpath]
  rfl

/-! ### What a computation loads -/

/-- What a computation loads and logs that touches some languages, from one analyzer to another. -/
structure Loads (grammars : Grammars) (touched : Syntax.Language → Prop)
    (before : Analyzer) (log : List LogEntry) (after : Analyzer) : Prop where
  /-- New languages are tried, each once, with an error for each whose grammar is broken. -/
  fresh : ∃ fresh : List Syntax.Language,
    fresh.Nodup ∧ (∀ language ∈ fresh, language ∉ before.tried) ∧
    after.tried = fresh ++ before.tried ∧
    errors log = fresh.reverse.filterMap fun language =>
      (grammars.broken.lookup language).map (loadNote language)
  /-- Of the broken grammars those are tried that are touched. -/
  mem_tried_iff : ∀ language reason, grammars.broken.lookup language = some reason →
    (language ∈ after.tried ↔ language ∈ before.tried ∨ touched language)

variable {touched other both : Syntax.Language → Prop}

/-- Nothing is loaded without an error in the log, if the broken grammars that are touched were
tried before. -/
theorem Loads.quiet (hlog : errors log = []) (hloaded : after.loaded = before.loaded)
    (htouched : ∀ language reason,
      grammars.broken.lookup language = some reason → touched language →
        language ∈ before.tried) : Loads grammars touched before log after where
  fresh := ⟨[], List.nodup_nil, by simp, by rw [tried, hloaded]; rfl, by rw [hlog]; rfl⟩
  mem_tried_iff language reason hbroken := by
    rw [tried, hloaded]
    exact ⟨Or.inl, fun h => h.elim id (htouched language reason hbroken)⟩

/-- One computation after another touches what either of them touches. -/
theorem Loads.trans (h : Loads grammars touched before log middle)
    (h' : Loads grammars other middle more after)
    (hboth : ∀ language, both language ↔ touched language ∨ other language) :
    Loads grammars both before (log ++ more) after where
  fresh := by
    obtain ⟨first, hfirst, hnew, hmiddle, hlog⟩ := h.fresh
    obtain ⟨second, hsecond, hnew', hafter, hmore⟩ := h'.fresh
    refine ⟨second ++ first, ?_, ?_, ?_, ?_⟩
    · rw [List.nodup_append]
      refine ⟨hsecond, hfirst, ?_⟩
      rintro language hlate _ hearly rfl
      apply hnew' language hlate
      rw [hmiddle]
      exact List.mem_append_left _ hearly
    · intro language hlanguage htried
      rcases List.mem_append.mp hlanguage with hlate | hearly
      · apply hnew' language hlate
        rw [hmiddle]
        exact List.mem_append_right _ htried
      · exact hnew language hearly htried
    · rw [hafter, hmiddle, List.append_assoc]
    · rw [errors_append, hlog, hmore, List.reverse_append, List.filterMap_append]
  mem_tried_iff language reason hbroken := by
    rw [h'.mem_tried_iff language reason hbroken, h.mem_tried_iff language reason hbroken, hboth,
      or_assoc]

/-- What is touched can be told in another way. -/
theorem Loads.congr (h : Loads grammars touched before log after)
    (hsame : ∀ language, other language ↔ touched language) :
    Loads grammars other before log after where
  fresh := h.fresh
  mem_tried_iff language reason hbroken := by
    rw [h.mem_tried_iff language reason hbroken, hsame]

/-- A computation that logs no error and loads nothing may come after. -/
theorem Loads.append_quiet (h : Loads grammars touched before log middle) (hmore : errors more = [])
    (hloaded : after.loaded = middle.loaded) :
    Loads grammars touched before (log ++ more) after := by
  have hnothing : Loads grammars (fun _ => False) middle more after :=
    .quiet hmore hloaded fun _ _ _ => False.elim
  refine h.trans hnothing fun language => ?_
  rw [or_false]

/-- Loading a grammar touches its language. -/
theorem load_loads (h : Faithful tree settings grammars root analyzer)
    (language : Syntax.Language) :
    Loads grammars (· = language) analyzer (analyzer.load language).log
      (analyzer.load language).value.2 := by
  cases hloaded : analyzer.loaded.lookup language with
  | some outcome =>
      have htried : language ∈ analyzer.tried := by
        by_contra hnot
        rw [lookup_loaded_eq_none_iff.mpr hnot] at hloaded
        contradiction
      rw [load, hloaded]
      refine .quiet rfl rfl ?_
      rintro language reason - rfl
      exact htried
  | none =>
      have hnew : language ∉ analyzer.tried := lookup_loaded_eq_none_iff.mp hloaded
      have htried : (analyzer.load language).value.2.tried = language :: analyzer.tried := by
        simp only [load, hloaded]
        cases analyzer.grammars.broken.lookup language <;> rfl
      have hlog : errors (analyzer.load language).log
          = [language].filterMap fun language =>
              (grammars.broken.lookup language).map (loadNote language) := by
        simp only [load, hloaded, h.grammars_eq]
        cases hbroken : grammars.broken.lookup language with
        | none => simp [hbroken, errors]
        | some reason => simp [hbroken, errors, loadNote]
      refine ⟨⟨[language], List.nodup_singleton language, ?_, htried, hlog⟩, ?_⟩
      · intro other hother
        rwa [List.mem_singleton.mp hother]
      · intro other reason hbroken
        rw [htried, List.mem_cons, or_comm]

/-- Reading the specifiers off a module touches its language, if it can be read. -/
theorem importSpecifiers_loads (h : Faithful tree settings grammars root analyzer) (path : Path) :
    Loads grammars (IsReadable tree · path) analyzer (analyzer.importSpecifiers tree path).log
      (analyzer.importSpecifiers tree path).value.2 := by
  simp only [importSpecifiers]
  cases hlanguage : Syntax.Language.ofExtension? (Text.lower (Path.extension path)) with
  | none =>
      refine .quiet rfl rfl ?_
      rintro language reason - ⟨hsome, -⟩
      rw [hlanguage] at hsome
      contradiction
  | some language =>
      cases hread : tree.read path with
      | error trouble =>
          refine .quiet rfl rfl ?_
          rintro language reason - ⟨-, bytes, hbytes⟩
          rw [hread] at hbytes
          contradiction
      | ok bytes =>
          have hload : Loads grammars (IsReadable tree · path) analyzer (analyzer.load language).log
              (analyzer.load language).value.2 := by
            have htouched : (IsReadable tree · path) = (· = language) := by
              funext other
              simp [IsReadable, hlanguage, hread, eq_comm]
            rw [htouched]
            exact load_loads h language
          simp only [Traced.value_bind, Traced.log_bind]
          generalize hresult : (analyzer.load language).value = result at hload
          obtain ⟨outcome, later⟩ := result
          cases outcome with
          | some reason => exact hload.append_quiet rfl rfl
          | none =>
              -- What is told of a flawed module is no error.
              by_cases hflawed : (later.grammars.parse language bytes).isFlawed = true
              · by_cases hstrict : later.settings.strictSyntax = true
                · simpa [hflawed, hstrict] using hload
                · simp only [hflawed, hstrict, if_true]
                  exact hload.append_quiet rfl rfl
              · simpa [hflawed] using hload

/-- Finding the imports of a module touches its language, if the module can be read. -/
theorem directImports_loads (h : Faithful tree settings grammars root analyzer) (path : Path) :
    Loads grammars (IsReadable tree · path) analyzer (analyzer.directImports tree path).log
      (analyzer.directImports tree path).value.2 := by
  unfold directImports
  cases hknown : analyzer.known.lookup path with
  | some files =>
      -- The imports of a module of a broken grammar are never kept.
      refine .quiet rfl rfl ?_
      intro language reason hbroken hpath
      have himports := h.known path files hknown
      rw [moduleImports_of_broken hbroken hpath] at himports
      contradiction
  | none =>
      have hloads := importSpecifiers_loads h path
      simp only [Traced.value_bind, Traced.log_bind]
      generalize (analyzer.importSpecifiers tree path).value = result at hloads
      obtain ⟨found, later⟩ := result
      cases found with
      | error failure => exact hloads.append_quiet rfl rfl
      | ok specifiers => exact hloads.append_quiet rfl rfl

variable {queue found files : List Path} {failure : Failure}

/-- The files of a module that is found anew are queued. -/
theorem searchFrom_ok (hnew : ¬(path ∈ found ∨ path = start))
    (hkind : classify analyzer.settings path = some .module)
    (h : analyzer.directImports tree path = ⟨(.ok files, after), log⟩) (steps : Nat)
    (queue : List Path) :
    searchFrom tree start (steps + 1) analyzer (path :: queue) found
      = ⟨(searchFrom tree start steps after (queue ++ files) (found ++ [path])).value,
        log ++ (searchFrom tree start steps after (queue ++ files) (found ++ [path])).log⟩ := by
  rw [searchFrom, if_neg hnew, if_neg (by simpa using hkind), h]
  rfl

/-- A module that is found anew and cannot be analyzed is noted. -/
theorem searchFrom_error (hnew : ¬(path ∈ found ∨ path = start))
    (hkind : classify analyzer.settings path = some .module)
    (h : analyzer.directImports tree path = ⟨(.error failure, after), log⟩) (steps : Nat)
    (queue : List Path) :
    searchFrom tree start (steps + 1) analyzer (path :: queue) found
      = ⟨(searchFrom tree start steps after queue (found ++ [path])).value,
        log ++ leafNote path failure ::
          (searchFrom tree start steps after queue (found ++ [path])).log⟩ := by
  rw [searchFrom, if_neg hnew, if_neg (by simpa using hkind), h]
  rfl

/-- A new file is found in one step of the search. If it is a module, its language is touched and
the log tells whether it can be analyzed. -/
theorem searchFrom_new (hf : Faithful tree settings grammars root analyzer)
    (hnew : ¬(path ∈ found ∨ path = start)) (queue : List Path) :
    ∃ log after more, Faithful tree settings grammars root after ∧
      Loads grammars (fun language => classify settings path = some .module ∧
        IsReadable tree language path) analyzer log after ∧
      (∀ failure, classify settings path = some .module →
        moduleImports tree settings grammars root path = .error failure →
        leafNote path failure ∈ log) ∧
      ∀ steps, searchFrom tree start (steps + 1) analyzer (path :: queue) found
        = ⟨(searchFrom tree start steps after (queue ++ more) (found ++ [path])).value,
          log ++ (searchFrom tree start steps after (queue ++ more) (found ++ [path])).log⟩ := by
  by_cases hkind : classify settings path = some .module
  · obtain ⟨hvalue, hafter⟩ := directImports_value hf path
    have hloads := directImports_loads hf path
    have hmodule : classify analyzer.settings path = some .module := by rwa [hf.settings_eq]
    rcases hdirect : analyzer.directImports tree path with ⟨⟨files, after⟩, log⟩
    rw [hdirect] at hvalue hafter hloads
    change files = moduleImports tree settings grammars root path at hvalue
    simp only [hkind, true_and, true_implies]
    cases files with
    | ok files =>
        refine ⟨log, after, files, hafter, hloads, ?_, fun steps =>
          searchFrom_ok hnew hmodule hdirect steps queue⟩
        intro failure herror
        rw [← hvalue] at herror
        contradiction
    | error failure =>
        refine ⟨log ++ [leafNote path failure], after, [], hafter, hloads.append_quiet rfl rfl,
          ?_, fun steps => ?_⟩
        · intro other herror
          obtain rfl : failure = other := Except.error.inj (hvalue.trans herror)
          exact List.mem_append_right _ List.mem_cons_self
        · rw [searchFrom_error hnew hmodule hdirect, List.append_nil, List.append_assoc]
          rfl
  · refine ⟨[], analyzer, [], hf, .quiet rfl rfl ?_, ?_, fun steps => ?_⟩
    · rintro language reason - ⟨hmodule, -⟩
      contradiction
    · intro failure hmodule
      contradiction
    · rw [searchFrom, if_neg hnew, hf.settings_eq, if_pos hkind, List.append_nil]
      rfl

/-- A search touches the languages of the modules that it finds, and the log tells which of them
cannot be analyzed. -/
theorem searchFrom_loads (hf : Faithful tree settings grammars root analyzer) (start : Path)
    (steps : Nat) (queue found : List Path) :
    found ⊆ (searchFrom tree start steps analyzer queue found).value.1 ∧
      Loads grammars (fun language =>
          ∃ path ∈ (searchFrom tree start steps analyzer queue found).value.1, path ∉ found ∧
            classify settings path = some .module ∧ IsReadable tree language path)
        analyzer (searchFrom tree start steps analyzer queue found).log
        (searchFrom tree start steps analyzer queue found).value.2 ∧
      ∀ path ∈ (searchFrom tree start steps analyzer queue found).value.1, path ∉ found →
        ∀ failure, classify settings path = some .module →
          moduleImports tree settings grammars root path = .error failure →
          leafNote path failure ∈ (searchFrom tree start steps analyzer queue found).log := by
  have hidle : ∀ (analyzer : Analyzer) (found : List Path),
      Loads grammars (fun language => ∃ path ∈ found, path ∉ found ∧
        classify settings path = some .module ∧ IsReadable tree language path)
        analyzer [] analyzer := by
    intro analyzer found
    refine .quiet rfl rfl ?_
    rintro language reason - ⟨path, hmem, hnot, -⟩
    exact absurd hmem hnot
  induction steps generalizing analyzer queue found with
  | zero => exact ⟨fun _ => id, hidle analyzer found, fun path hmem hnot => absurd hmem hnot⟩
  | succ n ih =>
      cases queue with
      | nil => exact ⟨fun _ => id, hidle analyzer found, fun path hmem hnot => absurd hmem hnot⟩
      | cons first queue =>
          by_cases hmet : first ∈ found ∨ first = start
          · rw [searchFrom, if_pos hmet]
            exact ih hf queue found
          · obtain ⟨log, after, more, hafter, hloads, hleaf, hstep⟩ := searchFrom_new hf hmet queue
            obtain ⟨hsubset, hlater, hnotes⟩ := ih hafter (queue ++ more) (found ++ [first])
            rw [hstep]
            generalize searchFrom tree start n after (queue ++ more) (found ++ [first]) = searched
              at hsubset hlater hnotes
            have hfirst : first ∈ searched.value.1 := hsubset (by simp)
            have hold : first ∉ found := fun h => hmet (Or.inl h)
            -- What is found anew is the first file, or is found later.
            have hcases : ∀ path, path ∉ found → path = first ∨ path ∉ found ++ [first] := by
              intro path hpath
              by_cases heq : path = first
              · exact Or.inl heq
              · exact Or.inr (by simp [hpath, heq])
            refine ⟨fun path hpath => hsubset (List.mem_append_left _ hpath),
              hloads.trans hlater fun language => ⟨?_, ?_⟩, ?_⟩
            · rintro ⟨path, hmem, hpath, hkind, hreadable⟩
              rcases hcases path hpath with rfl | hpath
              · exact Or.inl ⟨hkind, hreadable⟩
              · exact Or.inr ⟨path, hmem, hpath, hkind, hreadable⟩
            · rintro (⟨hkind, hreadable⟩ | ⟨path, hmem, hpath, hkind, hreadable⟩)
              · exact ⟨first, hfirst, hold, hkind, hreadable⟩
              · exact ⟨path, hmem, fun h => hpath (List.mem_append_left _ h), hkind, hreadable⟩
            · intro path hmem hpath failure hkind herror
              rcases hcases path hpath with rfl | hpath
              · exact List.mem_append_left _ (hleaf failure hkind herror)
              · exact List.mem_append_right _ (hnotes path hmem hpath failure hkind herror)

/-- Following a module touches its language and those of the modules that are found, and the log
tells which of these cannot be analyzed. -/
theorem reachable_loads (hf : Faithful tree settings grammars root analyzer) (path : Path) :
    Loads grammars (fun language => IsReadable tree language (Path.toSlashes path) ∨
          ∃ found, (analyzer.reachable tree path).value.1 = .ok found ∧ ∃ file ∈ found,
            classify settings file = some .module ∧ IsReadable tree language file)
        analyzer (analyzer.reachable tree path).log (analyzer.reachable tree path).value.2 ∧
      ∀ found, (analyzer.reachable tree path).value.1 = .ok found → ∀ file ∈ found, ∀ failure,
        classify settings file = some .module →
        moduleImports tree settings grammars root file = .error failure →
        leafNote file failure ∈ (analyzer.reachable tree path).log := by
  obtain ⟨hvalue, hafter⟩ := directImports_value hf (Path.toSlashes path)
  have hloads := directImports_loads hf (Path.toSlashes path)
  rw [reachable, Traced.value_bind, Traced.log_bind]
  generalize (analyzer.directImports tree (Path.toSlashes path)).value = result
    at hvalue hafter hloads
  obtain ⟨answer, after⟩ := result
  generalize (FileTree.pathBound + 1) * (FileTree.pathBound + 1) = steps
  cases answer with
  | error failure =>
      refine ⟨(hloads.append_quiet rfl rfl).congr fun language => ⟨?_, Or.inl⟩, ?_⟩
      · rintro (hreadable | ⟨found, hfound, -⟩)
        · exact hreadable
        · contradiction
      · intro found hfound
        contradiction
  | ok files =>
      obtain ⟨-, hsearch, hnotes⟩ :=
        searchFrom_loads hafter (Path.toSlashes path) steps files []
      simp only [Traced.value_bind, Traced.log_bind, Traced.value_pure, Traced.log_pure]
      generalize searchFrom tree (Path.toSlashes path) steps after files [] = searched
        at hsearch hnotes
      have hend : Loads grammars _ after (searched.log ++ []) searched.value.2 :=
        hsearch.append_quiet rfl rfl
      refine ⟨hloads.trans hend fun language => or_congr_right ?_, ?_⟩
      · constructor
        · rintro ⟨found, hfound, file, hfile, hkind, hreadable⟩
          obtain rfl := Except.ok.inj hfound
          exact ⟨file, hfile, List.not_mem_nil, hkind, hreadable⟩
        · rintro ⟨file, hfile, -, hkind, hreadable⟩
          exact ⟨_, rfl, file, hfile, hkind, hreadable⟩
      · intro found hfound file hfile failure hkind herror
        obtain rfl := Except.ok.inj hfound
        have hnote := hnotes file hfile List.not_mem_nil failure hkind herror
        simp [hnote]

end ImportClosure.Analyzer
