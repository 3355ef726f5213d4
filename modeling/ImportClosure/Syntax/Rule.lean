import ImportClosure.Syntax.Token

/-!
# `ImportClosure.Syntax.Rule`: grammars as data

A grammar is a family of rules, one for each of its symbols, and `Rule.run` reads a text by a
rule: it answers with the trees that the rule makes and the rest of the text, or with nothing
if the text does not follow the rule. A `choice` takes the first of its rules that the text
follows and does not come back to the others. A rule that reads a token takes off the layout
before it, and the comments there become trees in front of the token's.

Every step down into a rule uses up one unit of a budget. `Rule.budget` is more than a
grammar with rules of bounded depth needs for a text of the given length.
-/

set_option autoImplicit false

namespace ImportClosure.Syntax

/-- What a language has beyond the common part of the grammar. -/
structure Dialect where
  /-- Types and the declarations that go with them. -/
  typed : Bool
  /-- Markup between tags as a value. -/
  markup : Bool
  deriving DecidableEq, Repr

/-- A rule over symbols of type `σ`. -/
inductive Rule (σ : Type) where
  /-- A token with the layout before it. -/
  | take (token : Token)
  /-- A token without layout before it. -/
  | tight (token : Token)
  /-- A check. -/
  | check (check : Check)
  /-- The layout that comes next. -/
  | layout
  /-- The rule of a symbol. -/
  | use (symbol : σ)
  /-- All of the rules, one after the other. -/
  | seq (rules : List (Rule σ))
  /-- The first of the rules that the text follows. -/
  | choice (rules : List (Rule σ))
  /-- The rule as often as the text follows it. -/
  | many (rule : Rule σ)
  /-- Nothing, if the text follows the rule. -/
  | ahead (rule : Rule σ)
  /-- Nothing, unless the text follows the rule. -/
  | notAhead (rule : Rule σ)
  /-- One construct around the trees of the rule. -/
  | node (kind : NodeKind) (rule : Rule σ)
  /-- One construct around the trees of the rule if there are several. -/
  | group (rule : Rule σ)
  /-- The first rule, and then its tree as the first part of each construct that the second
  rule makes after it. -/
  | grow (first next : Rule σ)
  /-- The rule, with a role for the tree it makes last. -/
  | role (role : Role) (rule : Rule σ)
  /-- The rule in typed languages only. -/
  | typed (rule : Rule σ)
  /-- The rule in languages with markup only. -/
  | markup (rule : Rule σ)
  /-- The rule in languages without markup only. -/
  | plain (rule : Rule σ)
  /-- The place of something that is missing. -/
  | flaw

namespace Rule

variable {σ : Type}

/-- The rule or nothing. -/
def opt (rule : Rule σ) : Rule σ := .choice [rule, .seq []]

/-- The rule at least once. -/
def some (rule : Rule σ) : Rule σ := .seq [rule, .many rule]

/-- The rule with another between each two occurrences. -/
def sepBy (rule separator : Rule σ) : Rule σ := .seq [rule, .many (.seq [separator, rule])]

/-- Sets the role of the last tree. -/
def setLastRole (r : Role) : List Tree → List Tree
  | [] => []
  | [t] => [t.withRole r]
  | t :: rest => t :: setLastRole r rest

/-- Puts a tree into the construct that comes last, as its first part, with the trees before
the construct after it. -/
def putUnder (tree : Tree) : List Tree → Tree
  | [] => tree
  | trees =>
    match trees.getLast? with
    | Option.some (.node r kind parts) =>
      let head := if kind = .call then tree.withRole .callee else tree
      .node r kind (head :: trees.dropLast ++ parts)
    | _ => .node none .construct (tree :: trees)

/-- One construct around trees, unless there is only one of them. -/
def groupTrees : List Tree → List Tree
  | [t] => [t]
  | trees => [.node none .construct trees]

mutual

/-- Reads a text by a rule: the trees and the rest. -/
def run (dialect : Dialect) (rules : σ → Rule σ) :
    Nat → Rule σ → Text → Option (List Tree × Text)
  | 0, _, _ => none
  | budget + 1, rule, text =>
    match rule with
    | .take token =>
      let (comments, text) := skipLayout text
      match token.read? text with
      | Option.some (t, rest) => Option.some (comments ++ [.leaf none token.kind t], rest)
      | none => none
    | .tight token =>
      match token.read? text with
      | Option.some (t, rest) => Option.some ([.leaf none token.kind t], rest)
      | none => none
    | .check c => if c.holds text then Option.some ([], text) else none
    | .layout => Option.some (skipLayout text)
    | .use symbol => run dialect rules budget (rules symbol) text
    | .seq [] => Option.some ([], text)
    | .seq (first :: others) =>
      match run dialect rules budget first text with
      | none => none
      | Option.some (trees, rest) =>
        match run dialect rules budget (.seq others) rest with
        | none => none
        | Option.some (more, rest) => Option.some (trees ++ more, rest)
    | .choice [] => none
    | .choice (first :: others) =>
      match run dialect rules budget first text with
      | none => run dialect rules budget (.choice others) text
      | found => found
    | .many rule =>
      match run dialect rules budget rule text with
      | none => Option.some ([], text)
      | Option.some (trees, rest) =>
        match run dialect rules budget (.many rule) rest with
        | none => none
        | Option.some (more, rest) => Option.some (trees ++ more, rest)
    | .ahead rule =>
      match run dialect rules budget rule text with
      | none => none
      | Option.some _ => Option.some ([], text)
    | .notAhead rule =>
      match run dialect rules budget rule text with
      | none => Option.some ([], text)
      | Option.some _ => none
    | .node kind rule =>
      let (comments, text) := skipLayout text
      match run dialect rules budget rule text with
      | none => none
      | Option.some (trees, rest) => Option.some (comments ++ [.node none kind trees], rest)
    | .group rule =>
      let (comments, text) := skipLayout text
      match run dialect rules budget rule text with
      | none => none
      | Option.some (trees, rest) => Option.some (comments ++ groupTrees trees, rest)
    | .grow first next =>
      let (comments, text) := skipLayout text
      match run dialect rules budget first text with
      | none => none
      | Option.some (trees, rest) =>
        match groupTrees trees with
        | [tree] =>
          let (tree, rest) := runGrow dialect rules budget next tree rest
          Option.some (comments ++ [tree], rest)
        | trees => Option.some (comments ++ trees, rest)
    | .role r rule =>
      match run dialect rules budget rule text with
      | none => none
      | Option.some (trees, rest) => Option.some (setLastRole r trees, rest)
    | .typed rule => if dialect.typed then run dialect rules budget rule text else none
    | .markup rule => if dialect.markup then run dialect rules budget rule text else none
    | .plain rule => if dialect.markup then none else run dialect rules budget rule text
    | .flaw => Option.some ([.leaf none .flaw []], text)

/-- Puts a tree under each construct that a rule makes after it. -/
def runGrow (dialect : Dialect) (rules : σ → Rule σ) :
    Nat → Rule σ → Tree → Text → Tree × Text
  | 0, _, tree, text => (tree, text)
  | budget + 1, next, tree, text =>
    match run dialect rules budget next text with
    | none => (tree, text)
    | Option.some (trees, rest) => runGrow dialect rules budget next (putUnder tree trees) rest

end

/-- A budget for a text of the given length. -/
def budget (length : Nat) : Nat := 1024 * (length + 8)

end Rule

end ImportClosure.Syntax
