import ImportClosure.Analyzer.Resolve
import ImportClosure.Log
import ImportClosure.Syntax.Language
import ImportClosure.Syntax.Specifiers

/-!
# `ImportClosure.Analyzer.Basic`: the files that a module imports

An `Analyzer` reads modules. `importSpecifiers` parses one and answers with its specifiers,
and `directImports` with the files that they name; it keeps each answer that it finds, so
that a path is parsed once. The grammar of a language is loaded when the first module of the
language has been read; if that fails, one log entry tells, and every module of the language
fails in the same way.

A module that cannot be analyzed is a `Failure`: its language is unknown, it cannot be read,
its grammar is broken, or its syntax is and the settings are strict.
-/

set_option autoImplicit false

namespace ImportClosure

namespace Analyzer

/-- Why a module cannot be analyzed. -/
inductive Cause where
  | noGrammar (extension : Text)
  | unreadable (trouble : Trouble)
  | brokenGrammar (language : Syntax.Language) (reason : Text)
  | syntaxError
  deriving DecidableEq, Repr

/-- A module that cannot be analyzed. -/
structure Failure where
  cause : Cause
  path : Path
  deriving DecidableEq, Repr

/-- The words for a grammar that cannot be loaded. -/
def brokenWords (language : Syntax.Language) (reason : Text) : Text :=
  "Failed to load ".toList ++ language.name ++ " grammar: ".toList ++ reason

/-- The words for a failure. -/
def Failure.words (failure : Failure) : Text :=
  match failure.cause with
  | .noGrammar extension => "No grammar for extension ".toList ++ Text.quoted extension
  | .unreadable trouble => "Cannot read module: ".toList ++ trouble.report failure.path
  | .brokenGrammar language reason => brokenWords language reason
  | .syntaxError => "Syntax error in module".toList

/-- The report of a failure. -/
def Failure.message (failure : Failure) : Text := Component.moduleGraph.report failure.words

end Analyzer

/-- Analyzes the modules of a project. -/
structure Analyzer where
  root : Path
  settings : Settings
  grammars : Grammars
  /-- The grammars that have been loaded, with the reason for each that could not be. -/
  loaded : List (Syntax.Language × Option Text)
  /-- The direct imports that have been found. -/
  known : List (Path × List Path)

namespace Analyzer

/-- An analyzer that has read nothing yet. -/
def new (root : Path) (settings : Settings) (grammars : Grammars) : Analyzer :=
  ⟨root, settings, grammars, [], []⟩

/-- Loads the grammar of a language unless that has been tried: the reason if it cannot be
loaded. -/
def load (analyzer : Analyzer) (language : Syntax.Language) :
    Traced (Option Text × Analyzer) :=
  match analyzer.loaded.lookup language with
  | some outcome => pure (outcome, analyzer)
  | none => do
    let outcome := analyzer.grammars.broken.lookup language
    if let some reason := outcome then
      Traced.note .moduleGraph .error
        (brokenWords language reason ++ "; ".toList ++ language.name ++
          " modules will report no dependencies".toList)
    return (outcome, { analyzer with loaded := (language, outcome) :: analyzer.loaded })

/-- The specifiers of the module at a path, in the order of the source. -/
def importSpecifiers (analyzer : Analyzer) (tree : FileTree) (path : Path) :
    Traced (Except Failure (List Text) × Analyzer) :=
  let extension := Text.lower (Path.extension path)
  match Syntax.Language.ofExtension? extension with
  | none => pure (.error ⟨.noGrammar extension, path⟩, analyzer)
  | some language =>
    match tree.read path with
    | .error trouble => pure (.error ⟨.unreadable trouble, path⟩, analyzer)
    | .ok bytes => do
      let (broken, analyzer) ← analyzer.load language
      match broken with
      | some reason => return (.error ⟨.brokenGrammar language reason, path⟩, analyzer)
      | none =>
        let module := analyzer.grammars.parse language bytes
        if module.isFlawed then
          if analyzer.settings.strictSyntax then
            return (.error ⟨.syntaxError, path⟩, analyzer)
          else
            Traced.note .moduleGraph .debug
              ("Syntax errors in ".toList ++ path ++ ", using recovered tree".toList)
            return (.ok module.specifiers, analyzer)
        else return (.ok module.specifiers, analyzer)

/-- The files that specifiers in a module of `directory` name, each once. -/
def filesOf (analyzer : Analyzer) (tree : FileTree) (directory : Path)
    (specifiers : List Text) : List Path :=
  Text.distinct (specifiers.filterMap fun specifier =>
    resolve tree analyzer.settings analyzer.root specifier directory)

/-- The files that the module at a path imports, in the order of the source. -/
def directImports (analyzer : Analyzer) (tree : FileTree) (path : Path) :
    Traced (Except Failure (List Path) × Analyzer) :=
  match analyzer.known.lookup path with
  | some files => pure (.ok files, analyzer)
  | none => do
    let (found, analyzer) ← analyzer.importSpecifiers tree path
    match found with
    | .error failure => return (.error failure, analyzer)
    | .ok specifiers =>
      let files := analyzer.filesOf tree (Path.directory path) specifiers
      return (.ok files, { analyzer with known := (path, files) :: analyzer.known })

end Analyzer

end ImportClosure
