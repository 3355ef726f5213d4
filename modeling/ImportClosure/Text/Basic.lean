/-!
# `ImportClosure.Text.Basic`: text as a list of code points

Every string the resolver reads or writes is a `Text`, a list of characters, so that an
offset is a number of code points and every operation is a recursion over the list.

`splitOn` cuts at a separator and never yields the empty list. `le` is the order by code
point, and `sortedSet` lists the distinct elements of a collection in that order.
-/

set_option autoImplicit false

namespace ImportClosure

/-- A text is the list of its code points. -/
abbrev Text := List Char

namespace Text

/-- Equality of texts is that of their characters; named, so that each use finds this one. -/
instance instLawfulBEq : LawfulBEq Text := inferInstance

/-- The pieces of a text between the occurrences of a separator. A text without the
separator is one piece, and so is the empty text. -/
def splitOn (sep : Char) : Text → List Text
  | [] => [[]]
  | c :: rest =>
    if c = sep then [] :: splitOn sep rest
    else match splitOn sep rest with
      | [] => [[c]]
      | piece :: pieces => (c :: piece) :: pieces

/-- The text with every occurrence of one character replaced by another. -/
def replace (old new : Char) (text : Text) : Text :=
  text.map fun c => if c = old then new else c

/-- The text begins with `start`. -/
def startsWith (start text : Text) : Bool := start.isPrefixOf text

/-- The text ends with `ending`. -/
def endsWith (ending text : Text) : Bool := ending.isSuffixOf text

/-- The rest of a text after `start`, if it begins with it. -/
def after? : Text → Text → Option Text
  | [], text => some text
  | _ :: _, [] => none
  | c :: start, d :: text => if c = d then after? start text else none

/-- The text without the characters at its end that satisfy `p`. -/
def dropEndWhile (p : Char → Bool) (text : Text) : Text :=
  (text.reverse.dropWhile p).reverse

/-- The text before the first occurrence of a character, or all of it. -/
def before (c : Char) (text : Text) : Text := text.takeWhile (· ≠ c)

/-- The number of line feeds in a text. -/
def newlines (text : Text) : Nat := text.count '\n'

/-- The decimal digits of a number. -/
def ofNat (n : Nat) : Text := Nat.toDigits 10 n

/-- The decimal digits of a number, with zeros in front up to `width` digits. -/
def padded (width n : Nat) : Text :=
  let digits := ofNat n
  List.replicate (width - digits.length) '0' ++ digits

/-- The text followed by blanks up to `width` characters. -/
def padRight (width : Nat) (text : Text) : Text :=
  text ++ List.replicate (width - text.length) ' '

/-- The first text is before or equal to the second, by code point. -/
def le : Text → Text → Bool
  | [], _ => true
  | _ :: _, [] => false
  | a :: s, b :: t => if a.toNat < b.toNat then true else if a = b then le s t else false

/-- Adds a text to an ascending list unless the list has it. -/
def insertSorted (x : Text) : List Text → List Text
  | [] => [x]
  | y :: rest =>
    if x = y then y :: rest
    else if le x y then x :: y :: rest
    else y :: insertSorted x rest

/-- The distinct elements of a collection, ascending by code point. -/
def sortedSet (xs : List Text) : List Text := xs.foldr insertSorted []

/-- The distinct elements of a list, each at its first place. -/
def distinct : List Text → List Text
  | [] => []
  | x :: rest => x :: (distinct rest).filter (· ≠ x)

end Text

end ImportClosure
