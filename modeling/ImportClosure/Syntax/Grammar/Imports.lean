import ImportClosure.Syntax.Grammar.Symbol

/-!
# `ImportClosure.Syntax.Grammar.Imports`: import and export statements

An import statement names its source after a clause and `from`, alone, or in the call of
`require` that a name is set to. An export statement has a source if it passes on what
another module exports. `repair` describes what is left of these statements, and of calls of
`require` and `import`, in text that follows no rule.
-/

set_option autoImplicit false

namespace ImportClosure.Syntax.Grammar

/-- The source of an import. -/
def source : Form := .role .source string

/-- The attributes of an import. -/
def attributes : Form :=
  .seq [.choice [word "with", .seq [.check .sameLine, word "assert"]], .use .object]

/-- The word `from`, a source and the end of the statement. -/
def fromSource : Form := .seq [word "from", source, .opt attributes, semicolon]

/-- The name of something that a module exports. -/
def exportName : Form := .choice [string, anyName]

/-- A name with another one that it goes by. -/
def renamed : Form := .seq [exportName, .opt (.seq [word "as", exportName])]

/-- One of the names between the braces of an import or export. -/
def specifier : Form :=
  .choice
    [.typed (.seq [words ["type", "typeof"], renamed,
        .ahead (.choice [sign ",", sign "\x7d"])]),
      renamed]

/-- The names between the braces of an import or export. -/
def specifiers : Form :=
  .node .construct (.seq [sign "\x7b", .opt (commaList specifier), sign "\x7d"])

/-- All that a module exports, under one name. -/
def namespaceImport : Form := .seq [sign "*", word "as", anyName]

/-- What an import statement names. -/
def importClause : Form :=
  .choice
    [namespaceImport, specifiers,
      .seq [name, .opt (.seq [sign ",", .choice [namespaceImport, specifiers]])]]

/-- A name that is set to a call of `require`. -/
def requireClause : Form :=
  .node .importRequire
    (.seq [name, sign "=", word "require", sign "(", source, sign ")"])

/-- An import statement. -/
def importStatement : Form :=
  .node .importStatement (.seq [word "import", .choice
    [.seq [source, .opt attributes, semicolon],
      .typed (.seq [words ["type", "typeof"], importClause, fromSource]),
      .seq [importClause, fromSource],
      .typed (.seq [word "type", requireClause, semicolon]),
      .typed (.seq [requireClause, semicolon])]])

/-- A name that is set to another one. -/
def importAlias : Form :=
  .typed (.seq [word "import", name, sign "=", name, .many (.seq [sign ".", anyName]), semicolon])

/-- What follows `export default`. -/
def defaultExport : Form :=
  .choice
    [.use .function, .use .classDefinition,
      .seq [.notAhead (words ["function", "class"]), .ahead (word "interface"), .use .declaration],
      .seq [.use .expression, semicolon]]

/-- An export statement. -/
def exportStatement : Form :=
  .node .exportStatement (.seq [.many (.use .decorator), word "export", .choice
    [.seq [sign "*", .opt (.seq [word "as", exportName]), fromSource],
      .seq [specifiers, fromSource],
      .seq [specifiers, semicolon],
      .typed (.seq [word "type", specifiers, .choice [fromSource, semicolon]]),
      .typed (.seq [word "type", .flaw, sign "*", .opt (.seq [word "as", exportName]), fromSource]),
      .typed (.seq [sign "=", .use .expression, semicolon]),
      .typed (.seq [word "as", word "namespace", name, semicolon]),
      .seq [word "default", defaultExport],
      .use .declaration]])

/-! ### Repairs -/

/-- Something between the keyword of a statement and its source. -/
def junk : Form :=
  .seq [.notAhead (.choice [sign ";", string, words ["from", "import", "export"]]),
    .take .anything]

/-- The word `from` and a source after anything else. -/
def distantSource : Form := .seq [.many junk, word "from", source, .opt (sign ";"), .flaw]

/-- The callee of a call that imports. -/
def importCallee : Form :=
  .role .callee (.choice [.take .importWord, .seq [.ahead (word "require"), name]])

/-- What is left of an import in text that follows no rule, or else one token of it. -/
def repair : Form :=
  .choice
    [.node .importStatement (.seq [word "import",
        .choice [.seq [source, .flaw], distantSource]]),
      .node .exportStatement (.seq [word "export", .ahead (.choice [sign "*", sign "\x7b"]),
        distantSource]),
      .node .call (.seq [importCallee, .role .arguments
        (.node .arguments (.seq [sign "(", string, .flaw]))]),
      .seq [sign ".", anyName, .flaw],
      .take .openComment,
      .seq [.ahead (mark "`"), .use .template, .flaw],
      .take .anything]

end ImportClosure.Syntax.Grammar
