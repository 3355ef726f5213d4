import ImportClosure.Document.Layout

/-!
# `ImportClosure.Document.Literal`: quoted paths

A path stands between apostrophes or between double quotes, on one line. A backslash stands
for the character after it, whichever that is, so that a quote, a backslash and even a line
feed can be part of a path. A path that is blank is a fault.

`write` is the other direction: it puts a backslash before each quote of the same kind, each
backslash and each line feed.
-/

set_option autoImplicit false

namespace ImportClosure.Document

/-- The character is one that a path can stand between. -/
def isQuote (c : Char) : Bool := c = '\'' || c = '"'

namespace Literal

/-- Reads a path after its opening quote: the path and the rest after its closing quote.
`start` is the rest at the opening quote and `value` the path read so far, reversed. -/
def readFrom (quote : Char) (start : Text) : Text → Text → Except Malformed (Text × Text)
  | _, [] => .error ⟨.unterminatedString, start⟩
  | value, '\\' :: c :: rest => readFrom quote start (c :: value) rest
  | value, c :: rest =>
    if c = quote then
      if Text.allBlank value then .error ⟨.emptyPath, start⟩ else .ok (value.reverse, rest)
    else if c = '\n' then .error ⟨.unterminatedString, start⟩
    else readFrom quote start (c :: value) rest

/-- Reads the path that begins with the first character of the text, its quote. -/
def read : Text → Except Malformed (Text × Text)
  | [] => .error ⟨.unterminatedString, []⟩
  | quote :: rest => readFrom quote (quote :: rest) [] rest

/-- One character of a path between quotes. -/
def writeChar (quote c : Char) : Text :=
  if c = '\\' ∨ c = quote ∨ c = '\n' then ['\\', c] else [c]

/-- The path between quotes. -/
def write (quote : Char) (value : Text) : Text :=
  quote :: value.flatMap (writeChar quote) ++ [quote]

end Literal

end ImportClosure.Document
