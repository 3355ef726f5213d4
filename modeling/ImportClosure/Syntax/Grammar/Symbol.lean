import ImportClosure.Syntax.Rule

/-!
# `ImportClosure.Syntax.Grammar.Symbol`: the symbols of the module grammar

The rules of the grammar refer to each other by `Symbol`s. The modules beside this one hold
the rules, grouped by what they describe, and `ImportClosure.Syntax.Grammar` gives each
symbol its rule. This module also names the small rules that all of them use.
-/

set_option autoImplicit false

namespace ImportClosure.Syntax

/-- The symbols of the module grammar. -/
inductive Symbol where
  | program
  | statement
  | statements
  | block
  | repair
  | importStatement
  | exportStatement
  | declaration
  | classDefinition
  | classMember
  | decorator
  | function
  | parameters
  | signature
  | pattern
  | propertyName
  | expression
  | expressions
  | operand
  | chain
  | primary
  | suffix
  | freeParentheses
  | arguments
  | array
  | object
  | template
  | newExpression
  | element
  | elementContent
  | type
  | typeOperand
  | typePrimary
  | typeArguments
  | typeParameters
  | objectType
  | returnType

namespace Grammar

/-- A rule of the module grammar. -/
abbrev Form := Rule Symbol

/-- A sign. -/
def sign (s : String) : Form := .take (.sign s.toList)

/-- Characters that may be the beginning of a longer sign. -/
def mark (s : String) : Form := .take (.mark s.toList)

/-- A keyword. -/
def word (s : String) : Form := .take (.word s.toList)

/-- One of some keywords. -/
def words (ss : List String) : Form := .choice (ss.map word)

/-- A name that is no keyword. -/
def name : Form := .take .name

/-- A name or keyword where both are names. -/
def anyName : Form := .take .anyName

/-- A quoted text. -/
def string : Form := .take .string

/-- Items with commas between them and perhaps one after them. -/
def commaList (item : Form) : Form :=
  .seq [item, .many (.seq [sign ",", item]), .opt (sign ",")]

/-- Items with commas between them, where items can be left out. -/
def looseList (item : Form) : Form :=
  .seq [.opt item, .many (.seq [sign ",", .opt item])]

/-- The end of a statement: a semicolon, or a place where it can be left out. -/
def semicolon : Form := .choice [sign ";", .check .statementEnd]

/-- The closing brace of a body. At the end of the text it is missing. -/
def closeBody : Form :=
  .choice [sign "\x7d", .seq [.layout, .check .textEnd, .flaw]]

/-- A body between braces. What follows no item is repaired. -/
def body (item : Form) : Form :=
  .node .construct (.seq [sign "\x7b",
    .many (.seq [.notAhead (sign "\x7d"), .choice [item, .use .repair]]), closeBody])

/-- A type after a colon. -/
def typeAnnotation : Form := .typed (.seq [sign ":", .use .type])

/-- A value after an equals sign. -/
def initializer : Form := .seq [sign "=", .use .expression]

/-- A condition between parentheses. -/
def condition : Form := .seq [sign "(", .use .expressions, sign ")"]

end Grammar

end ImportClosure.Syntax
