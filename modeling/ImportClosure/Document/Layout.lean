import ImportClosure.Text.Blank
import ImportClosure.Text.Quoted

/-!
# `ImportClosure.Document.Layout`: what separates the words of an import directive

A document mixes prose and code. The reader of its import directives works on the text that
is left to read; it either answers with a shorter rest or stops with a `Malformed`, which
holds the fault and the rest at which it was found.

`skipLayout` drops white space, comments to the end of a line and block comments. Its only
fault is a block comment without an end, found at the comment's first character.
-/

set_option autoImplicit false

namespace ImportClosure.Document

/-- What can be wrong with an import directive. -/
inductive Fault where
  /-- A block comment has no end. -/
  | unterminatedComment
  /-- A path does not end on the line that it begins on. -/
  | unterminatedString
  /-- A path is empty or blank. -/
  | emptyPath
  /-- A character that no clause can hold. -/
  | unexpected (c : Char)
  /-- A closing brace without an opening one. -/
  | unbalancedBrace
  /-- The text ends inside a clause. -/
  | unfinishedClause
  /-- No path follows a clause. -/
  | missingPath
  /-- The argument of a dynamic import is no path. -/
  | computedPath
  /-- A dynamic import is not closed after its path. -/
  | unterminatedDynamic
  deriving DecidableEq, Repr

/-- The words for a fault. -/
def Fault.message : Fault → Text
  | unterminatedComment => "unterminated comment".toList
  | unterminatedString => "unterminated string literal".toList
  | emptyPath => "empty import path".toList
  | unexpected c => "unexpected ".toList ++ Text.quoted [c] ++ " in import clause".toList
  | unbalancedBrace => "unbalanced brace in import clause".toList
  | unfinishedClause => "import clause reaches end of text".toList
  | missingPath => "expected a quoted path after 'from'".toList
  | computedPath => "dynamic import without a string literal".toList
  | unterminatedDynamic => "unterminated dynamic import".toList

/-- A fault and the rest of the text at which it was found. -/
structure Malformed where
  fault : Fault
  rest : Text
  deriving DecidableEq, Repr

mutual

/-- The rest after white space and comments. -/
def skipLayout : Text → Except Malformed Text
  | [] => .ok []
  | '/' :: '/' :: rest => skipLine rest
  | '/' :: '*' :: rest => skipBlock ('/' :: '*' :: rest) rest
  | c :: rest => if Text.isBlank c then skipLayout rest else .ok (c :: rest)

/-- The rest after a comment that ends with its line, and the layout that follows. -/
def skipLine : Text → Except Malformed Text
  | [] => .ok []
  | '\n' :: rest => skipLayout rest
  | _ :: rest => skipLine rest

/-- The rest after a block comment and the layout that follows; `start` is the rest at the
comment's first character. -/
def skipBlock (start : Text) : Text → Except Malformed Text
  | [] => .error ⟨.unterminatedComment, start⟩
  | '*' :: '/' :: rest => skipLayout rest
  | _ :: rest => skipBlock start rest

end

end ImportClosure.Document
