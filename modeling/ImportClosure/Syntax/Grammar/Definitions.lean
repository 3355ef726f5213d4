import ImportClosure.Syntax.Grammar.Symbol

/-!
# `ImportClosure.Syntax.Grammar.Definitions`: functions and classes

A function has a signature and a body; in typed languages the body can be missing. The
members of a class are methods, fields, static blocks and index signatures, with modifiers
and decorators before them. A modifier is a name like any other unless a member follows it.
-/

set_option autoImplicit false

namespace ImportClosure.Syntax.Grammar

/-- The name of a property. -/
def propertyName : Form :=
  .choice
    [string, .take .number, anyName, .take .privateName,
      .node .construct (.seq [sign "[", .use .expressions, sign "]"])]

/-- What a pattern can be: a name, or a structure of patterns. -/
def pattern : Form :=
  .choice
    [name,
      .node .construct (.seq [sign "\x7b", .opt (commaList (.choice
        [.seq [sign "...", .use .pattern],
          .seq [.use .propertyName, sign ":", .use .pattern, .opt initializer],
          .seq [name, .opt initializer]])), sign "\x7d"]),
      .node .construct (.seq [sign "[", looseList (.choice
        [.seq [sign "...", .use .pattern], .seq [.use .pattern, .opt initializer]]), sign "]"])]

/-- A decorator. -/
def decorator : Form :=
  .node .construct (.seq [sign "@", .choice
    [condition,
      .grow name (.choice
        [.node .construct (.seq [sign ".", anyName]),
          .node .call (.seq [.opt (.typed (.use .typeArguments)),
            .role .arguments (.use .arguments)])])]])

/-- Modifiers of a parameter, each with a parameter after it. -/
def parameterModifiers : Form :=
  .many (.typed (.seq
    [words ["public", "private", "protected", "override", "readonly"],
      .ahead (.choice [name, word "this", sign "\x7b", sign "[", sign "..."])]))

/-- A parameter of a function. -/
def parameter : Form :=
  .seq [.many (.use .decorator), parameterModifiers, .opt (sign "..."),
    .choice [.use .pattern, word "this"], .opt (.typed (sign "?")), .opt typeAnnotation,
    .opt initializer]

/-- The parameters of a function. -/
def parameters : Form :=
  .node .construct (.seq [sign "(", .opt (commaList parameter), sign ")"])

/-- What is returned: a type, or what a test tells of an argument. -/
def returned : Form :=
  .choice
    [.seq [word "asserts", .check .sameLine, .choice [word "this", name],
        .opt (.seq [.check .sameLine, word "is", .use .type])],
      .seq [.choice [word "this", name], .check .sameLine, word "is", .use .type],
      .use .type]

/-- The type of what a function returns. -/
def returnType : Form := .typed (.seq [sign ":", returned])

/-- The types, parameters and result of a function. -/
def signature : Form :=
  .seq [.opt (.typed (.use .typeParameters)), .use .parameters, .opt (.use .returnType)]

/-- A function with its keyword. -/
def function : Form :=
  .node .construct (.seq
    [.opt (.seq [word "async", .check .sameLine]), word "function", .opt (sign "*"), .opt name,
      .use .signature, .choice [.use .block, .typed semicolon]])

/-- What can follow a modifier. -/
def memberStart : Form :=
  .choice [anyName, .take .privateName, string, .take .number, sign "[", sign "*"]

/-- Modifiers with a member after them. -/
def modifiers : Form :=
  .many (.seq
    [.choice
      [words ["static", "async", "get", "set", "accessor"],
        .typed (words
          ["public", "private", "protected", "readonly", "override", "abstract", "declare"])],
      .ahead memberStart])

/-- A field or a method after its name. -/
def memberValue : Form :=
  .choice
    [.seq [.use .signature, .choice [.use .block, .typed semicolon]],
      .seq [.opt typeAnnotation, .opt initializer, semicolon]]

/-- A signature for all the names that are not listed. -/
def indexSignature : Form :=
  .seq [sign "[", name, typeAnnotation, sign "]", .opt (sign "?"), typeAnnotation]

/-- A member of a class. -/
def classMember : Form :=
  .choice
    [sign ";",
      .group (.seq [word "static", .use .block]),
      .typed (.group (.seq [modifiers, indexSignature, semicolon])),
      .group (.seq [.many (.use .decorator), modifiers, .opt (sign "*"), .use .propertyName,
        .opt (.typed (.choice [sign "?", sign "!"])), memberValue])]

/-- What a class extends and implements. -/
def heritage : Form :=
  .seq
    [.opt (.seq [word "extends", .use .chain, .opt (.typed (.use .typeArguments)),
        .many (.typed (.seq [sign ",", .use .chain, .opt (.use .typeArguments)]))]),
      .opt (.typed (.seq [word "implements", .sepBy (.use .type) (sign ",")]))]

/-- A class with its keyword. -/
def classDefinition : Form :=
  .node .construct (.seq
    [.many (.use .decorator), .opt (.typed (word "abstract")), word "class",
      .opt (.seq [.notAhead (word "implements"), name]), .opt (.typed (.use .typeParameters)),
      heritage, body (.use .classMember)])

end ImportClosure.Syntax.Grammar
