import ImportClosure.Text.Basic

/-!
# `ImportClosure.Syntax.Tree`: syntax trees of modules

A tree holds every token of a module, comments included. A `leaf` is one token with its
text. A `node` is a construct with its parts in the order of the source; its `NodeKind` sets
apart the constructs that can import something, and `construct` stands for all others.

Some parts have a `Role` for the construct they stand in: the source of an import, the
callee and the arguments of a call. Comments have none. The flaws of a tree are the places
where the module did not follow the grammar.
-/

set_option autoImplicit false

namespace ImportClosure.Syntax

/-- What a part is to the construct it stands in. -/
inductive Role where
  | source
  | callee
  | arguments
  deriving DecidableEq, Repr

/-- The kinds of tokens. -/
inductive LeafKind where
  /-- Punctuation, an operator or a keyword. -/
  | sign
  /-- A name. -/
  | name
  /-- The word `import` where it is called. -/
  | importWord
  /-- A quoted text with its quotes. -/
  | string
  | comment
  /-- Any other token with a text of its own: a number, a pattern, a piece of a template. -/
  | other
  /-- Text that no construct takes in, or the place of a token that is missing. -/
  | flaw
  deriving DecidableEq, Repr

/-- The kinds of constructs. -/
inductive NodeKind where
  | program
  | importStatement
  | exportStatement
  /-- The `x = require("…")` of an import statement. -/
  | importRequire
  | call
  | arguments
  | template
  | substitution
  /-- A construct that imports nothing by itself. -/
  | construct
  deriving DecidableEq, Repr

/-- A syntax tree. -/
inductive Tree where
  | leaf (role : Option Role) (kind : LeafKind) (text : Text)
  | node (role : Option Role) (kind : NodeKind) (parts : List Tree)

namespace Tree

/-- The role of a tree. -/
def role : Tree → Option Role
  | leaf role _ _ => role
  | node role _ _ => role

/-- The tree in another role. -/
def withRole (role : Role) : Tree → Tree
  | leaf _ kind text => leaf role kind text
  | node _ kind parts => node role kind parts

/-- The parts of a tree; a token has none. -/
def parts : Tree → List Tree
  | leaf _ _ _ => []
  | node _ _ parts => parts

/-- The tree is more than punctuation or a keyword. Comments are. -/
def isNamed : Tree → Bool
  | leaf _ .sign _ => false
  | leaf _ _ _ => true
  | node _ _ _ => true

/-- The tree is a piece of code inside a template. -/
def isSubstitution : Tree → Bool
  | node _ .substitution _ => true
  | _ => false

mutual

/-- The text of a tree: that of its tokens, one after the other. -/
def text : Tree → Text
  | leaf _ _ text => text
  | node _ _ parts => textOf parts

/-- The text of several trees. -/
def textOf : List Tree → Text
  | [] => []
  | t :: rest => text t ++ textOf rest

end

mutual

/-- The number of tokens and constructs of a tree. -/
def size : Tree → Nat
  | leaf _ _ _ => 1
  | node _ _ parts => 1 + sizeOfAll parts

/-- The number of tokens and constructs of several trees. -/
def sizeOfAll : List Tree → Nat
  | [] => 0
  | t :: rest => size t + sizeOfAll rest

end

mutual

/-- The tree has a flaw. -/
def isFlawed : Tree → Bool
  | leaf _ kind _ => kind = .flaw
  | node _ _ parts => anyFlawed parts

/-- One of the trees has a flaw. -/
def anyFlawed : List Tree → Bool
  | [] => false
  | t :: rest => isFlawed t || anyFlawed rest

end

end Tree

end ImportClosure.Syntax
