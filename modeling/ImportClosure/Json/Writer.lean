import ImportClosure.Json.Value
import ImportClosure.Text.Quoted

/-!
# `ImportClosure.Json.Writer`: JSON text in ASCII

`render` writes a value on one line, with `", "` between items and `": "` after a name.
Texts hold printable ASCII characters only: quotes, backslashes and five control characters
have short escapes, and every other character is written by its UTF-16 units in hexadecimal,
one beyond the basic plane as a surrogate pair.
-/

set_option autoImplicit false

namespace ImportClosure.Json

/-- The escape of one UTF-16 unit. -/
def escapeUnit (unit : Nat) : Text := '\\' :: 'u' :: Text.hex 4 unit

/-- One character inside a JSON text. -/
def writeChar (c : Char) : Text :=
  if c = '"' ∨ c = '\\' then ['\\', c]
  else if c = '\n' then ['\\', 'n']
  else if c = '\r' then ['\\', 'r']
  else if c = '\t' then ['\\', 't']
  else if c.toNat = 8 then ['\\', 'b']
  else if c.toNat = 12 then ['\\', 'f']
  else if 0x20 ≤ c.toNat ∧ c.toNat < 0x7F then [c]
  else if c.toNat < 0x10000 then escapeUnit c.toNat
  else
    escapeUnit (0xD800 + (c.toNat - 0x10000) / 1024) ++
      escapeUnit (0xDC00 + (c.toNat - 0x10000) % 1024)

/-- A text between double quotes. -/
def writeText (text : Text) : Text := '"' :: text.flatMap writeChar ++ ['"']

/-- A whole number in decimal. -/
def writeInt (n : Int) : Text :=
  if n < 0 then '-' :: Text.ofNat n.natAbs else Text.ofNat n.natAbs

mutual

/-- The JSON text of a value. -/
def render : Value → Text
  | .null | .other => "null".toList
  | .bool true => "true".toList
  | .bool false => "false".toList
  | .number m e => if e = 0 then writeInt m else writeInt m ++ 'e' :: writeInt e
  | .text t => writeText t
  | .list items => '[' :: renderItems items ++ [']']
  | .object members => '\x7b' :: renderMembers members ++ ['\x7d']

/-- The items of a list with commas between them. -/
def renderItems : List Value → Text
  | [] => []
  | [v] => render v
  | v :: rest => render v ++ ", ".toList ++ renderItems rest

/-- The members of an object with commas between them. -/
def renderMembers : List (Text × Value) → Text
  | [] => []
  | [(name, v)] => writeText name ++ ": ".toList ++ render v
  | (name, v) :: rest =>
    writeText name ++ ": ".toList ++ render v ++ ", ".toList ++ renderMembers rest

end

end ImportClosure.Json
