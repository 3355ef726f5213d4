import ImportClosure.Document.Literal
import ImportClosure.Text.Word

/-!
# `ImportClosure.Document.Directive`: import directives

A directive follows the keyword `import` or `export` and ends with the quoted path that it
references:

* `import "./side-effect"`
* `import Default, { a, b as c } from "./module"`
* `import * as ns from './module'`
* `import("./lazy")`
* `export { a } from "./module"`

`readDirective` reads what follows the keyword. It answers with the path and the rest after
it, with nothing when the keyword begins no directive (`export const x`, `import.meta`), or
with a fault. A clause that an `export` cannot finish is ordinary code and no fault.
-/

set_option autoImplicit false

namespace ImportClosure.Document

/-- The words that a directive begins with. -/
inductive Keyword where
  | imports
  | exports
  deriving DecidableEq, Repr

/-- The text of a keyword. -/
def Keyword.text : Keyword → Text
  | .imports => "import".toList
  | .exports => "export".toList

/-- Reads a binding name: the name and the rest after it. -/
def readName? : Text → Option (Text × Text)
  | [] => none
  | c :: rest =>
    if Text.isIdentifierStart c then
      some (c :: rest.takeWhile Text.isIdentifierPart, rest.dropWhile Text.isIdentifierPart)
    else none

/-- The word between a clause and its path. -/
def fromWord : Text := "from".toList

/-- Reads a clause up to and including the `from` that ends it, and answers with the rest.
`depth` counts the open braces, and `bound` tells whether the clause has named something
yet: a `from` ends the clause outside braces and after a name. Each step reads at least one
character, so that as many steps as characters and one more are enough. -/
def readClauseFrom : Nat → (depth : Nat) → (bound : Bool) → Text → Except Malformed Text
  | 0, _, _, rest => .error ⟨.unfinishedClause, rest⟩
  | steps + 1, depth, bound, text => do
    match ← skipLayout text with
    | [] => .error ⟨.unfinishedClause, []⟩
    | c :: rest =>
      if c = '{' then readClauseFrom steps (depth + 1) bound rest
      else if c = '}' then
        if depth = 0 then .error ⟨.unbalancedBrace, c :: rest⟩
        else readClauseFrom steps (depth - 1) true rest
      else if c = ',' then readClauseFrom steps depth bound rest
      else if c = '*' then readClauseFrom steps depth true rest
      else if isQuote c && depth ≠ 0 then
        let (_, rest) ← Literal.read (c :: rest)
        readClauseFrom steps depth bound rest
      else match readName? (c :: rest) with
        | none => .error ⟨.unexpected c, c :: rest⟩
        | some (name, rest) =>
          if name = fromWord ∧ depth = 0 ∧ bound then .ok rest
          else readClauseFrom steps depth true rest

/-- Reads a clause up to and including its `from`. -/
def readClause (text : Text) : Except Malformed Text :=
  readClauseFrom (text.length + 1) 0 false text

/-- Reads the path that must come next. -/
def expectPath (text : Text) : Except Malformed (Text × Text) := do
  match ← skipLayout text with
  | [] => .error ⟨.missingPath, []⟩
  | c :: rest =>
    if isQuote c then Literal.read (c :: rest) else .error ⟨.missingPath, c :: rest⟩

/-- Reads the argument of a dynamic import, after its opening parenthesis: a path and the
closing parenthesis, or a comma that further arguments follow. -/
def readDynamic (text : Text) : Except Malformed (Text × Text) := do
  match ← skipLayout text with
  | [] => .error ⟨.computedPath, []⟩
  | c :: rest =>
    if isQuote c then
      let (path, rest) ← Literal.read (c :: rest)
      match ← skipLayout rest with
      | [] => .error ⟨.unterminatedDynamic, []⟩
      | d :: rest =>
        if d = ')' ∨ d = ',' then .ok (path, rest)
        else .error ⟨.unterminatedDynamic, d :: rest⟩
    else .error ⟨.computedPath, c :: rest⟩

/-- Reads what follows an `import`. -/
def readImport (text : Text) : Except Malformed (Option (Text × Text)) := do
  match ← skipLayout text with
  | [] => .ok none
  | c :: rest =>
    if isQuote c then return some (← Literal.read (c :: rest))
    else if c = '(' then return some (← readDynamic rest)
    else if c = '{' ∨ c = '*' ∨ Text.isIdentifierStart c then
      return some (← expectPath (← readClause (c :: rest)))
    else .ok none

/-- Reads what follows an `export`. Only a clause can lead to a path, and text that is no
clause makes the `export` one of ordinary code. -/
def readExport (text : Text) : Except Malformed (Option (Text × Text)) := do
  match ← skipLayout text with
  | [] => .ok none
  | c :: rest =>
    if c = '{' ∨ c = '*' then
      match readClause (c :: rest) with
      | .error _ => .ok none
      | .ok rest => return some (← expectPath rest)
    else .ok none

/-- Reads what follows a keyword: the path and the rest after the directive, or nothing if
the keyword begins no directive. -/
def readDirective : Keyword → Text → Except Malformed (Option (Text × Text))
  | .imports => readImport
  | .exports => readExport

end ImportClosure.Document
