import ImportClosure.Analyzer.Basic
import ImportClosure.Proofs.Text.Sorted

/-!
# `ImportClosure.Proofs.Analyzer.Direct`: what an analyzer keeps does not show

`moduleSpecifiers` and `moduleImports` are the answers about a module as functions of the file
tree. An analyzer is `Faithful` if what it keeps are such answers. A new one is
(`faithful_new`), and a faithful one gives the answers and stays faithful:
`importSpecifiers_value` and `directImports_value`.
-/

set_option autoImplicit false

namespace ImportClosure.Analyzer

variable (tree : FileTree) (settings : Settings) (grammars : Grammars)
  (root : Path)

/-- The specifiers of the module at a path. -/
def moduleSpecifiers (path : Path) : Except Failure (List Text) :=
  match Syntax.Language.ofExtension? (Text.lower (Path.extension path)) with
  | none => .error ⟨.noGrammar (Text.lower (Path.extension path)), path⟩
  | some language =>
    match tree.read path with
    | .error trouble => .error ⟨.unreadable trouble, path⟩
    | .ok bytes =>
      match grammars.broken.lookup language with
      | some reason => .error ⟨.brokenGrammar language reason, path⟩
      | none =>
        let module := grammars.parse language bytes
        if module.isFlawed ∧ settings.strictSyntax then .error ⟨.syntaxError, path⟩
        else .ok module.specifiers

/-- The files that the module at a path imports. -/
def moduleImports (path : Path) : Except Failure (List Path) :=
  (moduleSpecifiers tree settings grammars path).map fun specifiers =>
    Text.distinct (specifiers.filterMap fun specifier =>
      resolve tree settings root specifier (Path.directory path))

/-- What the analyzer keeps are the answers that it would find anew. -/
structure Faithful (analyzer : Analyzer) : Prop where
  root_eq : analyzer.root = root
  settings_eq : analyzer.settings = settings
  grammars_eq : analyzer.grammars = grammars
  loaded : ∀ language outcome, analyzer.loaded.lookup language = some outcome →
    outcome = grammars.broken.lookup language
  known : ∀ path files, analyzer.known.lookup path = some files →
    moduleImports tree settings grammars root path = .ok files

/-- A new analyzer keeps nothing. -/
theorem faithful_new : Faithful tree settings grammars root (new root settings grammars) where
  root_eq := rfl
  settings_eq := rfl
  grammars_eq := rfl
  loaded := by simp [new]
  known := by simp [new]

variable {tree settings grammars root} {analyzer : Analyzer}

/-- Loading a grammar finds out whether it is broken, and keeps the analyzer faithful. -/
theorem load_value (h : Faithful tree settings grammars root analyzer)
    (language : Syntax.Language) :
    (analyzer.load language).value.1 = grammars.broken.lookup language ∧
      Faithful tree settings grammars root (analyzer.load language).value.2 := by
  cases hloaded : analyzer.loaded.lookup language with
  | some outcome =>
      rw [load, hloaded]
      exact ⟨h.loaded language outcome hloaded, h⟩
  | none =>
      have hvalue : (analyzer.load language).value
          = (grammars.broken.lookup language, { analyzer with
              loaded := (language, grammars.broken.lookup language) :: analyzer.loaded }) := by
        simp only [load, hloaded, h.grammars_eq]
        cases grammars.broken.lookup language <;> rfl
      rw [hvalue]
      -- What is kept from now on is the outcome for this language, and the others as before.
      refine ⟨rfl, h.root_eq, h.settings_eq, h.grammars_eq, ?_, h.known⟩
      intro l outcome hl
      by_cases hlang : l = language
      · subst hlang
        rw [List.lookup_cons_self, Option.some.injEq] at hl
        exact hl.symm
      · have hne : (l == language) = false := by simpa using hlang
        rw [List.lookup_cons, hne] at hl
        exact h.loaded l outcome hl

/-- A faithful analyzer reads the specifiers off a module, and stays faithful. -/
theorem importSpecifiers_value (h : Faithful tree settings grammars root analyzer) (path : Path) :
    (analyzer.importSpecifiers tree path).value.1
        = moduleSpecifiers tree settings grammars path ∧
      Faithful tree settings grammars root (analyzer.importSpecifiers tree path).value.2 := by
  simp only [importSpecifiers, moduleSpecifiers]
  cases Syntax.Language.ofExtension? (Text.lower (Path.extension path)) with
  | none => exact ⟨rfl, h⟩
  | some language =>
      cases tree.read path with
      | error trouble => exact ⟨rfl, h⟩
      | ok bytes =>
          obtain ⟨houtcome, hfaithful⟩ := load_value h language
          simp only [Traced.value_bind]
          generalize (analyzer.load language).value = loaded at houtcome hfaithful
          obtain ⟨outcome, after⟩ := loaded
          change outcome = grammars.broken.lookup language at houtcome
          change Faithful tree settings grammars root after at hfaithful
          subst houtcome
          cases grammars.broken.lookup language with
          | some reason => exact ⟨rfl, hfaithful⟩
          | none =>
              simp only [hfaithful.settings_eq, hfaithful.grammars_eq]
              by_cases hflawed : (grammars.parse language bytes).isFlawed = true
              · by_cases hs : settings.strictSyntax = true
                · simpa [hflawed, hs] using hfaithful
                · simpa [hflawed, hs] using hfaithful
              · simpa [hflawed] using hfaithful

/-- A faithful analyzer finds the imports of a module, and stays faithful. -/
theorem directImports_value (h : Faithful tree settings grammars root analyzer) (path : Path) :
    (analyzer.directImports tree path).value.1
        = moduleImports tree settings grammars root path ∧
      Faithful tree settings grammars root (analyzer.directImports tree path).value.2 := by
  unfold directImports
  cases hknown : analyzer.known.lookup path with
  | some files => exact ⟨(h.known path files hknown).symm, h⟩
  | none =>
      obtain ⟨hspecifiers, hfaithful⟩ := importSpecifiers_value h path
      simp only [Traced.value_bind]
      generalize (analyzer.importSpecifiers tree path).value = result at hspecifiers hfaithful
      obtain ⟨found, after⟩ := result
      change found = moduleSpecifiers tree settings grammars path at hspecifiers
      subst hspecifiers
      unfold moduleImports
      cases hfound : moduleSpecifiers tree settings grammars path with
      | error failure => exact ⟨rfl, hfaithful⟩
      | ok specifiers =>
          have hfiles : after.filesOf tree (Path.directory path) specifiers
              = Text.distinct (specifiers.filterMap fun specifier =>
                  resolve tree settings root specifier (Path.directory path)) := by
            rw [filesOf, hfaithful.settings_eq, hfaithful.root_eq]
          -- The new answer is kept for this path, and is the one that would be found anew.
          refine ⟨congrArg Except.ok hfiles, hfaithful.root_eq, hfaithful.settings_eq,
            hfaithful.grammars_eq, hfaithful.loaded, ?_⟩
          intro q files hq
          change ((path, after.filesOf tree (Path.directory path) specifiers)
            :: after.known).lookup q = some files at hq
          by_cases hpath : q = path
          · subst hpath
            rw [List.lookup_cons_self, Option.some.injEq] at hq
            rw [moduleImports, hfound, ← hq, hfiles]
            rfl
          · have hne : (q == path) = false := by simpa using hpath
            rw [List.lookup_cons, hne] at hq
            exact hfaithful.known q files hq

/-- A module names each file that it imports once. -/
theorem nodup_of_moduleImports {path : Path} {files : List Path}
    (h : moduleImports tree settings grammars root path = .ok files) : files.Nodup := by
  unfold moduleImports at h
  cases hspecifiers : moduleSpecifiers tree settings grammars path with
  | error failure => simp [hspecifiers, Except.map] at h
  | ok specifiers =>
      rw [hspecifiers, Except.map, Except.ok.injEq] at h
      rw [← h]
      exact Text.nodup_distinct _

/-- A file that a module imports is what one of its specifiers names. -/
theorem exists_resolve_of_moduleImports {path file : Path} {files : List Path}
    (h : moduleImports tree settings grammars root path = .ok files) (hfile : file ∈ files) :
    ∃ specifier, resolve tree settings root specifier (Path.directory path) = some file := by
  unfold moduleImports at h
  cases hspecifiers : moduleSpecifiers tree settings grammars path with
  | error failure => simp [hspecifiers, Except.map] at h
  | ok specifiers =>
      rw [hspecifiers, Except.map, Except.ok.injEq] at h
      rw [← h, Text.mem_distinct, List.mem_filterMap] at hfile
      obtain ⟨specifier, -, hresolve⟩ := hfile
      exact ⟨specifier, hresolve⟩

end ImportClosure.Analyzer
