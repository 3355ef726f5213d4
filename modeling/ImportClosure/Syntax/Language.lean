import ImportClosure.Syntax.Tree

/-!
# `ImportClosure.Syntax.Language`: the languages of modules and their grammars

The extension of a module tells its `Language`. Modules are parsed by `Grammars`, of which some
may be broken, so that they cannot be loaded. What a grammar makes of a module is left open here:
whoever reads modules is given the grammars.
-/

set_option autoImplicit false

namespace ImportClosure

/-- The languages that modules are written in. -/
inductive Syntax.Language where
  | javascript
  | typescript
  | tsx
  deriving DecidableEq, Repr

namespace Syntax.Language

/-- The name of a language. -/
def name : Language → Text
  | javascript => "javascript".toList
  | typescript => "typescript".toList
  | tsx => "tsx".toList

/-- The language of modules with an extension, which is given in lower case. -/
def ofExtension? (extension : Text) : Option Language :=
  if extension ∈ [".ts", ".mts", ".cts"].map String.toList then some typescript
  else if extension = ".tsx".toList then some tsx
  else if extension ∈ [".js", ".jsx", ".mjs", ".cjs"].map String.toList then some javascript
  else none

end Syntax.Language

/-- The grammars of the languages. -/
structure Grammars where
  /-- The languages whose grammar cannot be loaded, with the reason. -/
  broken : List (Syntax.Language × Text)
  /-- The syntax tree of a module, which is given by its bytes. -/
  parse : Syntax.Language → List UInt8 → Syntax.Tree

/-- The same grammars with none of them broken. -/
def Grammars.whole (grammars : Grammars) : Grammars := { grammars with broken := [] }

@[simp]
theorem Grammars.broken_whole (grammars : Grammars) : grammars.whole.broken = [] := rfl

@[simp]
theorem Grammars.parse_whole (grammars : Grammars) : grammars.whole.parse = grammars.parse := rfl

end ImportClosure
