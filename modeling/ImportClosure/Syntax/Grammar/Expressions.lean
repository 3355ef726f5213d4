import ImportClosure.Syntax.Grammar.Symbol

/-!
# `ImportClosure.Syntax.Grammar.Expressions`: values

An expression is a row of operands with signs between them; how the signs bind is of no
account here. An operand is a function in arrow form, signs before another operand, or a
chain: a primary value with member accesses and calls after it, each of which has what stands
before it as its first part.

A parenthesis can enclose a value or the parameters of an arrow function. It is read as a
value first, and that reading is given up if an arrow follows it, or, in typed languages, a
type and an arrow.
-/

set_option autoImplicit false

namespace ImportClosure.Syntax.Grammar

/-- The body of an arrow function. -/
def arrowBody : Form := .seq [sign "=>", .choice [.use .block, .use .expression]]

/-- The parameters of an arrow function between parentheses, and its body. -/
def arrowTail : Form := .seq [.use .parameters, .opt (.use .returnType), arrowBody]

/-- An arrow function with type parameters. Where tags can begin a value, a comma or a bound
tells type parameters from a tag. -/
def genericArrow : Form :=
  .typed (.seq
    [.choice
      [.plain (.ahead (mark "<")),
        .markup (.ahead (.seq [mark "<", name, .choice [sign ",", word "extends"]]))],
      .use .typeParameters, arrowTail])

/-- An arrow function that does not begin with a parenthesis. -/
def plainArrow : Form :=
  .choice
    [.seq [name, arrowBody],
      .seq [word "async", .check .sameLine, .choice
        [.seq [name, arrowBody], arrowTail, genericArrow]],
      genericArrow]

/-- A value between parentheses. -/
def freeParentheses : Form := .node .construct condition

/-- A value between parentheses that are not those of an arrow function. -/
def parentheses : Form :=
  .seq [.use .freeParentheses,
    .notAhead (.choice [sign "=>", .seq [.use .returnType, sign "=>"]])]

/-- An operand of an expression. -/
def operand : Form :=
  .group (.choice
    [plainArrow,
      .seq [words ["typeof", "void", "delete", "await"], .use .operand],
      .seq [word "yield", .choice
        [.seq [sign "*", .use .expression],
          .opt (.seq [.check .sameLine, .use .expression])]],
      .seq [.take .unarySign, .use .operand],
      .typed (.plain (.seq [mark "<", .use .type, mark ">", .use .operand])),
      .seq [.use .chain, .opt (.seq [.check .sameLine, .choice [sign "++", sign "--"]])],
      arrowTail,
      .grow (.use .freeParentheses) (.use .suffix)])

/-- The rest of a conditional expression after its question mark. -/
def conditionalTail : Form :=
  .choice
    [.seq [.use .expression, sign ":", .use .expression],
      .seq [.grow (.use .freeParentheses) (.use .suffix), sign ":", .use .expression]]

/-- What can follow an operand. -/
def operandTail : Form :=
  .choice
    [.seq [.take .binarySign, .use .operand],
      .seq [.take .assignSign, .use .operand],
      .seq [sign "?", conditionalTail],
      .seq [words ["in", "instanceof"], .use .operand],
      .typed (.seq [.check .sameLine, words ["as", "satisfies"],
        .choice [word "const", .use .type]])]

/-- An expression. -/
def expression : Form := .group (.seq [.use .operand, .many operandTail])

/-- Expressions with commas between them. -/
def expressions : Form := .group (.sepBy (.use .expression) (sign ","))

/-- The arguments of a call. -/
def arguments : Form :=
  .node .arguments (.seq [sign "(", looseList (.choice
    [.node .construct (.seq [sign "...", .use .expression]), .use .expression]), sign ")"])

/-- An array. -/
def array : Form :=
  .node .construct (.seq [sign "[", looseList (.choice
    [.seq [sign "...", .use .expression], .use .expression]), sign "]"])

/-- Modifiers of a property, each with a property after it. -/
def propertyModifiers : Form :=
  .many (.seq
    [words ["async", "get", "set", "static", "readonly"],
      .ahead (.choice [.use .propertyName, sign "*"])])

/-- A property of an object. -/
def property : Form :=
  .choice
    [.seq [sign "...", .use .expression],
      .group (.seq [propertyModifiers, .opt (sign "*"), .use .propertyName, .use .signature,
        .use .block]),
      .group (.seq [.use .propertyName, sign ":", .use .expression]),
      name]

/-- An object. -/
def object : Form :=
  .node .construct (.seq [sign "\x7b", looseList property, sign "\x7d"])

/-- A pattern that is assigned to. -/
def assignedPattern : Form := .seq [.use .pattern, .ahead (sign "=")]

/-- Code inside a template. -/
def substitution : Form :=
  .node .substitution (.seq [.tight (.mark "$\x7b".toList), .use .expressions, sign "\x7d"])

/-- A template. -/
def template : Form :=
  .node .template (.seq [mark "`", .many (.choice [.tight .templatePiece, substitution]),
    .tight (.mark "`".toList)])

/-- A member access. -/
def access : Form :=
  .choice
    [.node .construct (.seq [.choice [sign ".", sign "?."], .choice [anyName, .take .privateName]]),
      .node .construct (.seq [.opt (sign "?."), sign "[", .use .expressions, sign "]"])]

/-- What can follow a name with type arguments that is not called. -/
def instantiationEnd : Form :=
  .choice
    [sign ";", sign ",", sign ")", sign "]", sign ":", .check .statementEnd]

/-- What can follow a value in a chain. -/
def suffix : Form :=
  .choice
    [access,
      .node .call (.seq [.opt (sign "?."), .opt (.typed (.use .typeArguments)),
        .role .arguments (.choice [.use .arguments, .use .template])]),
      .typed (.node .construct (.seq [.check .sameLine, sign "!"])),
      .typed (.node .construct (.seq [.use .typeArguments, .ahead instantiationEnd]))]

/-- A chain of accesses and calls. -/
def chain : Form := .grow (.use .primary) (.use .suffix)

/-- The making of an object, with arguments if there are any. -/
def newExpression : Form :=
  .node .construct (.seq [word "new", .choice
    [.seq [sign ".", anyName],
      .seq [.grow (.use .primary) access, .opt (.typed (.use .typeArguments)),
        .opt (.use .arguments)]]])

/-- A value that a chain can begin with. -/
def primary : Form :=
  .choice
    [.use .function,
      .use .classDefinition,
      name,
      .seq [.take .importWord, .ahead (sign "(")],
      .seq [word "import", sign ".", anyName],
      string,
      .take .number,
      .seq [.ahead (mark "`"), .use .template],
      parentheses,
      .use .array,
      .use .object,
      assignedPattern,
      words ["this", "super", "null", "true", "false"],
      .use .newExpression,
      .take .pattern,
      .take .privateName,
      .markup (.use .element)]

end ImportClosure.Syntax.Grammar
