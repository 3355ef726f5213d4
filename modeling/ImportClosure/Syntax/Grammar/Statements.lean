import ImportClosure.Syntax.Grammar.Imports
import ImportClosure.Syntax.Grammar.Definitions

/-!
# `ImportClosure.Syntax.Grammar.Statements`: statements and declarations

A module is a row of statements. What follows no statement is repaired token by token until a
statement can be read again, so that every text is read as a module.
-/

set_option autoImplicit false

namespace ImportClosure.Syntax.Grammar

/-- A variable with its type and value. -/
def declarator : Form :=
  .seq [.use .pattern, .opt (.typed (sign "!")), .opt typeAnnotation, .opt initializer]

/-- The words that variables are declared with. -/
def variableWord : Form := words ["const", "let", "var"]

/-- Variables without the end of the statement. -/
def declarators : Form := .seq [variableWord, .sepBy declarator (sign ",")]

/-- An enumeration. -/
def enumeration : Form :=
  .seq [.opt (word "const"), word "enum", name, sign "\x7b",
    .opt (commaList (.seq [.use .propertyName, .opt initializer])), sign "\x7d"]

/-- A namespace, or the declaration of a module that lies elsewhere. -/
def namespaceDefinition : Form :=
  .seq [words ["namespace", "module"], .choice [string, .sepBy name (sign ".")],
    .choice [.use .block, semicolon]]

/-- A declaration of typed languages. -/
def typedDeclaration : Form :=
  .choice
    [.seq [word "interface", name, .opt (.use .typeParameters),
        .opt (.seq [word "extends", .sepBy (.use .type) (sign ",")]), .use .objectType],
      .seq [word "type", name, .opt (.use .typeParameters), sign "=", .use .type, semicolon],
      enumeration,
      namespaceDefinition,
      .seq [word "declare", .choice [.seq [word "global", .use .block], .use .declaration]],
      importAlias]

/-- A declaration. -/
def declaration : Form :=
  .group (.choice
    [.use .function,
      .use .classDefinition,
      .typed typedDeclaration,
      .seq [declarators, semicolon]])

/-- The head of a loop over values or names. -/
def forEachHead : Form :=
  .seq [.choice [.seq [variableWord, .use .pattern, .opt typeAnnotation], .use .chain],
    words ["of", "in"], .use .expressions]

/-- The head of a loop with a condition. -/
def forHead : Form :=
  .seq [.opt (.choice [declarators, .use .expressions]), sign ";",
    .opt (.use .expressions), sign ";", .opt (.use .expressions)]

/-- A branch of a `switch`. -/
def switchBranch : Form :=
  .seq [.choice [.seq [word "case", .use .expressions], word "default"], sign ":",
    .many (.seq [.notAhead (.choice [words ["case", "default"], sign "\x7d"]),
      .choice [.use .statement, .use .repair]])]

/-- A statement that begins with a keyword of its own. -/
def controlStatement : Form :=
  .choice
    [.seq [word "if", condition, .use .statement, .opt (.seq [word "else", .use .statement])],
      .seq [word "for", .opt (word "await"), sign "(", .choice [forEachHead, forHead],
        sign ")", .use .statement],
      .seq [word "while", condition, .use .statement],
      .seq [word "do", .use .statement, word "while", condition, .opt semicolon],
      .seq [word "switch", condition, body switchBranch],
      .seq [word "try", .use .block,
        .opt (.seq [word "catch", .opt (.seq [sign "(", .use .pattern, .opt typeAnnotation,
          sign ")"]), .use .block]),
        .opt (.seq [word "finally", .use .block])],
      .seq [word "return", .opt (.use .expressions), semicolon],
      .seq [word "throw", .use .expressions, semicolon],
      .seq [words ["break", "continue"], .opt (.seq [.check .sameLine, name]), semicolon],
      .seq [word "debugger", semicolon],
      .seq [word "with", condition, .use .statement]]

/-- A statement. -/
def statement : Form :=
  .choice
    [.use .block,
      .use .importStatement,
      .use .exportStatement,
      .use .declaration,
      .group controlStatement,
      sign ";",
      .group (.seq [name, sign ":", .use .statement]),
      .group (.seq [.use .expressions, semicolon])]

/-- Statements up to the end of the text. -/
def statements : Form :=
  .many (.choice [.take .markupComment, .use .statement, .use .repair])

/-- Statements between braces. -/
def block : Form := body (.use .statement)

/-- A module. -/
def program : Form :=
  .node .program (.seq [.opt (.take .interpreterLine), .use .statements, .layout])

end ImportClosure.Syntax.Grammar
