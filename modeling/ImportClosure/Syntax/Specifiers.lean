import ImportClosure.Syntax.Tree

/-!
# `ImportClosure.Syntax.Specifiers`: the specifiers that a module imports

A specifier is the text of a string, or of a template without code inside, as it stands
between the quotes in the source: escapes are not read. A construct can name one itself:

* an import or export statement and an `x = require("…")` by their source,
* a call of `require` or `import` by the first of its arguments, of which a comment is one.

An empty specifier counts as none. `specifiers` visits the constructs of a tree in the order
of the source, each before its parts.
-/

set_option autoImplicit false

namespace ImportClosure.Syntax.Tree

/-- A text without its first and its last character. -/
def unquote (text : Text) : Text := (text.drop 1).dropLast

/-- The text between the quotes of a string or of a template without code inside. -/
def literal? : Tree → Option Text
  | leaf _ .string text => some (unquote text)
  | node _ .template parts =>
    if parts.any isSubstitution then none else some (unquote (textOf parts))
  | _ => none

/-- The first of some trees that has the given role. -/
def withRole? (role : Role) (parts : List Tree) : Option Tree :=
  parts.find? fun t => t.role = some role

/-- A call of this callee is an import. -/
def importsByCall : Tree → Bool
  | leaf _ .importWord _ => true
  | leaf _ .name text => text = "require".toList
  | _ => false

/-- The text that a call's first argument stands for, if the call is an import. -/
def callSpecifier? (parts : List Tree) : Option Text := do
  let callee ← withRole? .callee parts
  if importsByCall callee then
    let arguments ← withRole? .arguments parts
    let first ← arguments.parts.find? isNamed
    first.literal?
  else none

/-- The specifier that a tree itself names, apart from its parts. -/
def ownSpecifier? (tree : Tree) : Option Text :=
  let found := match tree with
    | node _ .importStatement parts | node _ .exportStatement parts
    | node _ .importRequire parts => (withRole? .source parts).bind literal?
    | node _ .call parts => callSpecifier? parts
    | _ => none
  found.filter (· ≠ [])

/-- The specifiers of the trees that are still to be visited. Each step visits one tree, so
that as many steps as the trees have tokens and constructs are enough. -/
def visit : Nat → List Tree → List Text
  | 0, _ => []
  | _ + 1, [] => []
  | steps + 1, tree :: pending =>
    tree.ownSpecifier?.toList ++ visit steps (tree.parts ++ pending)

/-- The specifiers of a tree in the order of the source. -/
def specifiers (tree : Tree) : List Text := visit tree.size [tree]

end ImportClosure.Syntax.Tree
