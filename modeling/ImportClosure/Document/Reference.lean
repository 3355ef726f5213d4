import ImportClosure.Document.Directive
import ImportClosure.Log
import ImportClosure.Path.Basic

/-!
# `ImportClosure.Document.Reference`: the references of a document

`references` reads a document from its first character to its last. Where a keyword stands
at a word boundary it reads a directive: a complete one gives a reference and reading goes on
after it; otherwise reading goes on after the keyword, and a malformed directive is noted in
the log. Outside directives every other character is passed over.
-/

set_option autoImplicit false

namespace ImportClosure.Document

/-- A path that a document references. -/
structure Reference where
  /-- The path as the directive quotes it, unescaped. -/
  specifier : Text
  /-- The document's own path. -/
  source : Path
  /-- The line of the directive's keyword; the first line is 1. -/
  line : Nat
  deriving DecidableEq, Repr

/-- A keyword after this character is not part of a longer word. -/
def startsWord : Option Char → Bool
  | none => true
  | some c => !(Text.isWord c || c = '$' || c = '.')

/-- A keyword before this text is not part of a longer word. -/
def endsWord : Text → Bool
  | [] => true
  | c :: _ => !(Text.isWord c || c = '$')

/-- The keyword that stands at the beginning of the text at a word boundary, and the rest
after it. `previous` is the character before the text. -/
def keywordAt? (previous : Option Char) (text : Text) : Option (Keyword × Text) :=
  if startsWord previous then
    match Text.after? Keyword.imports.text text with
    | some rest => if endsWord rest then some (.imports, rest) else none
    | none => match Text.after? Keyword.exports.text text with
      | some rest => if endsWord rest then some (.exports, rest) else none
      | none => none
  else none

/-- The note on a malformed directive. -/
def malformedNote (keyword : Keyword) (source : Path) (line : Nat) (fault : Fault) : Text :=
  "Skipping malformed ".toList ++ keyword.text ++ " in ".toList ++
    (if source = [] then "<text>".toList else source) ++ " at line ".toList ++
    Text.ofNat line ++ ": ".toList ++ Component.documentImports.report fault.message

/-- Reads the references of the text that is left. `previous` is the character before it and
`line` the line it begins on. Each step reads at least one character. -/
def referencesFrom (source : Path) :
    Nat → (previous : Option Char) → (line : Nat) → Text → Traced (List Reference)
  | 0, _, _, _ => pure []
  | _ + 1, _, _, [] => pure []
  | steps + 1, previous, line, c :: rest =>
    match keywordAt? previous (c :: rest) with
    | none => referencesFrom source steps (some c) (line + Text.newlines [c]) rest
    | some (keyword, body) =>
      match readDirective keyword body with
      | .ok (some (specifier, next)) => do
        let span := (c :: rest).take (rest.length + 1 - next.length)
        let others ← referencesFrom source steps span.getLast? (line + Text.newlines span) next
        return ⟨specifier, source, line⟩ :: others
      | .ok none => referencesFrom source steps keyword.text.getLast? line body
      | .error malformed => do
        Traced.note .documentImports .debug (malformedNote keyword source line malformed.fault)
        referencesFrom source steps keyword.text.getLast? line body

/-- The references of a document in the order of the text, repeated ones included. -/
def references (text : Text) (source : Path) : Traced (List Reference) :=
  referencesFrom source (text.length + 1) none 1 text

end ImportClosure.Document
