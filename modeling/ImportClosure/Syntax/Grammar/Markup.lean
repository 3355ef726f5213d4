import ImportClosure.Syntax.Grammar.Symbol

/-!
# `ImportClosure.Syntax.Grammar.Markup`: markup as a value

An element is one tag that closes itself, or two tags with text, elements and code between
them; the tags may have no name. All between the tags that is no element and no code is text,
comment signs and quotes included.
-/

set_option autoImplicit false

namespace ImportClosure.Syntax.Grammar

/-- A name in a tag, with the names it is part of. -/
def tagName : Form :=
  .group (.sepBy (.take .markupName) (.choice [mark ".", mark ":"]))

/-- Code in markup. It may be empty but for comments. -/
def embedded : Form :=
  .node .construct (.seq [sign "\x7b", .opt (.choice
    [.seq [sign "...", .use .expression], .use .expressions]), sign "\x7d"])

/-- An attribute in a tag. -/
def tagAttribute : Form :=
  .choice
    [embedded,
      .group (.seq [tagName, .opt (.seq [mark "=",
        .choice [.take .markupString, embedded, .use .element]])])]

/-- A closing tag. -/
def closingTag : Form := .seq [mark "<", mark "/", .opt tagName, mark ">"]

/-- What stands between two tags. -/
def elementContent : Form :=
  .many (.choice
    [.tight .markupText, .use .element, embedded,
      .seq [.choice [.tight (.mark [ '>' ]), .tight (.mark ['\x7d'])], .flaw]])

/-- An element. -/
def element : Form :=
  .node .construct (.seq [mark "<", .choice
    [.seq [mark ">", .use .elementContent, closingTag],
      .seq [tagName, .opt (.typed (.use .typeArguments)), .many tagAttribute, .choice
        [.seq [mark "/", mark ">"],
          .seq [mark ">", .use .elementContent, closingTag]]]]])

end ImportClosure.Syntax.Grammar
