import ImportClosure.Syntax.Grammar.Statements
import ImportClosure.Syntax.Grammar.Expressions
import ImportClosure.Syntax.Grammar.Markup
import ImportClosure.Syntax.Grammar.Types
import ImportClosure.Syntax.Language
import ImportClosure.Text.Utf8

/-!
# `ImportClosure.Syntax.Grammar`: reading a module

`Grammar.rules` gives each symbol its rule, and `parse` reads the text of a module in one of
the three languages. Every text is read; the flaws of its tree tell where it did not follow
the grammar.
-/

set_option autoImplicit false

namespace ImportClosure

namespace Syntax

/-- The rules of the module grammar. -/
def Grammar.rules : Symbol → Rule Symbol
  | .program => program
  | .statement => statement
  | .statements => statements
  | .block => block
  | .repair => repair
  | .importStatement => importStatement
  | .exportStatement => exportStatement
  | .declaration => declaration
  | .classDefinition => classDefinition
  | .classMember => classMember
  | .decorator => decorator
  | .function => function
  | .parameters => parameters
  | .signature => signature
  | .pattern => pattern
  | .propertyName => propertyName
  | .expression => expression
  | .expressions => expressions
  | .operand => operand
  | .chain => chain
  | .primary => primary
  | .suffix => suffix
  | .freeParentheses => freeParentheses
  | .arguments => arguments
  | .array => array
  | .object => object
  | .template => template
  | .newExpression => newExpression
  | .element => element
  | .elementContent => elementContent
  | .type => type
  | .typeOperand => typeOperand
  | .typePrimary => typePrimary
  | .typeArguments => typeArguments
  | .typeParameters => typeParameters
  | .objectType => objectType
  | .returnType => returnType

/-- What a language has beyond the common part of the grammar. -/
def Language.dialect : Language → Dialect
  | .javascript => ⟨false, true⟩
  | .typescript => ⟨true, false⟩
  | .tsx => ⟨true, true⟩

/-- The syntax tree of a module. -/
def parse (language : Language) (text : Text) : Tree :=
  match Rule.run language.dialect Grammar.rules (Rule.budget text.length) (.use .program) text with
  | some ([tree], _) => tree
  | some (trees, _) => .node none .program trees
  | none => .node none .program [.leaf none .flaw text]

end Syntax

/-- The grammars of this library, with some of them broken. -/
def Grammars.builtIn (broken : List (Syntax.Language × Text)) : Grammars where
  broken := broken
  parse language bytes := Syntax.parse language (Text.decode bytes)

/-- A list of broken languages stands for the grammars of this library without theirs. -/
instance : Coe (List (Syntax.Language × Text)) Grammars := ⟨Grammars.builtIn⟩

end ImportClosure
