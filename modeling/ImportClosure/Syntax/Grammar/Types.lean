import ImportClosure.Syntax.Grammar.Definitions

/-!
# `ImportClosure.Syntax.Grammar.Types`: types

Types import as well: `import("…")` is a type, and `typeof` takes a call of it or of
`require`. The strings of types are no sources.
-/

set_option autoImplicit false

namespace ImportClosure.Syntax.Grammar

/-- Type parameters. -/
def typeParameters : Form :=
  .node .construct (.seq [sign "<", commaList (.seq
    [.many (.seq [words ["const", "in", "out"], .ahead name]), name,
      .opt (.seq [word "extends", .use .type]), .opt (.seq [sign "=", .use .type])]), mark ">"])

/-- Type arguments. -/
def typeArguments : Form :=
  .node .construct (.seq [sign "<", commaList (.use .type), mark ">"])

/-- The end of a conditional type. -/
def conditionalTypeTail : Form :=
  .seq [word "extends", .use .type, sign "?", .use .type, sign ":", .use .type]

/-- A type. -/
def type : Form :=
  .group (.seq
    [.opt (.choice [sign "|", sign "&"]), .use .typeOperand,
      .many (.seq [.choice [sign "|", sign "&"], .use .typeOperand]), .opt conditionalTypeTail])

/-- The type of a function. -/
def functionType : Form :=
  .seq [.opt (.seq [.opt (word "abstract"), word "new"]), .opt (.use .typeParameters),
    .use .parameters, sign "=>", returned]

/-- A type that joins others, or one of those. -/
def typeOperand : Form :=
  .group (.choice
    [.seq [words ["keyof", "readonly"], .use .typeOperand],
      .seq [word "unique", word "symbol"],
      .seq [word "infer", name,
        .opt (.seq [word "extends", .use .typeOperand, .notAhead (sign "?")])],
      functionType,
      .seq [.use .typePrimary,
        .many (.seq [.check .sameLine, sign "[", .opt (.use .type), sign "]"])]])

/-- Accesses and calls in a type. -/
def typeSuffix : Form :=
  .choice
    [.node .construct (.seq [.choice [sign ".", sign "?."], .choice [anyName, .take .privateName]]),
      .node .call (.seq [.role .arguments (.use .arguments)])]

/-- An element of a tuple type. -/
def tupleElement : Form :=
  .choice
    [.seq [.opt (sign "..."), anyName, .opt (sign "?"), sign ":", .use .type],
      .seq [.opt (sign "..."), .use .type, .opt (sign "?")]]

/-- A template with types inside. -/
def templateType : Form :=
  .seq [mark "`", .many (.choice
    [.tight .templatePiece,
      .seq [.tight (.mark "$\x7b".toList), .use .type, sign "\x7d"]]), .tight (.mark "`".toList)]

/-- A type that is no combination of others. -/
def typePrimary : Form :=
  .choice
    [.seq [sign "(", .use .type, sign ")"],
      .use .objectType,
      .node .construct (.seq [sign "[", .opt (commaList tupleElement), sign "]"]),
      .group templateType,
      string,
      .seq [.opt (sign "-"), .take .number],
      .seq [word "typeof", .grow (.choice [.take .importWord, word "this", name]) typeSuffix,
        .opt (.use .typeArguments)],
      .seq [.ahead (.seq [word "import", sign "("]), .grow (.take .importWord) typeSuffix,
        .opt (.use .typeArguments)],
      words ["void", "null", "true", "false", "this"],
      .seq [name, .many (.seq [sign ".", anyName]),
        .opt (.seq [.check .sameLine, .use .typeArguments])]]

/-- A plus or minus before a modifier of a mapped type. -/
def mappedSign : Form := .opt (.choice [sign "+", sign "-"])

/-- A type that maps names to types. -/
def mappedType : Form :=
  .seq [.opt (.seq [mappedSign, word "readonly"]), sign "[", name, word "in", .use .type,
    .opt (.seq [word "as", .use .type]), sign "]", .opt (.seq [mappedSign, sign "?"]),
    .opt typeAnnotation]

/-- A member of an object type. -/
def typeMember : Form :=
  .choice
    [mappedType,
      .seq [modifiers, indexSignature],
      .seq [.opt (word "new"), .use .signature],
      .seq [modifiers, .use .propertyName, .opt (sign "?"),
        .choice [.use .signature, .opt typeAnnotation]]]

/-- An object type. -/
def objectType : Form :=
  .node .construct (.seq [sign "\x7b", .many (.choice
    [sign ";", sign ",",
      .seq [typeMember, .choice [sign ";", sign ",", .check .statementEnd]]]), sign "\x7d"])

end ImportClosure.Syntax.Grammar
