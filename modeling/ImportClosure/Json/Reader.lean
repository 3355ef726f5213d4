import ImportClosure.Json.Value

/-!
# `ImportClosure.Json.Reader`: reading JSON text

`read?` reads one value with white space around it. It follows the grammar of JSON, with the
three names of numbers that are not finite in addition. A text may hold no control
characters, and halves of surrogate pairs must stand in pairs; a text with an unpaired half
is a value, but no text.

The reader works on the characters left; each step of nesting or repetition uses up one unit
of a budget that starts above the number of characters.
-/

set_option autoImplicit false

namespace ImportClosure.Json

/-- White space between the parts of a value. -/
def isSpace (c : Char) : Bool := c = ' ' || c = '\t' || c = '\n' || c = '\r'

/-- The rest after white space. -/
def skipSpace (text : Text) : Text := text.dropWhile isSpace

/-- The value of a hexadecimal digit. -/
def hexDigit? (c : Char) : Option Nat :=
  if '0' ≤ c ∧ c ≤ '9' then some (c.toNat - '0'.toNat)
  else if 'a' ≤ c ∧ c ≤ 'f' then some (c.toNat - 'a'.toNat + 10)
  else if 'A' ≤ c ∧ c ≤ 'F' then some (c.toNat - 'A'.toNat + 10)
  else none

/-- Reads the four digits of a UTF-16 unit. -/
def readUnit? : Text → Option (Nat × Text)
  | a :: b :: c :: d :: rest => do
    let a ← hexDigit? a
    let b ← hexDigit? b
    let c ← hexDigit? c
    let d ← hexDigit? d
    return (((a * 16 + b) * 16 + c) * 16 + d, rest)
  | _ => none

/-- The character that a backslash and a letter stand for. -/
def shortEscape? : Char → Option Char
  | '"' => some '"'
  | '\\' => some '\\'
  | '/' => some '/'
  | 'b' => some '\x08'
  | 'f' => some '\x0c'
  | 'n' => some '\n'
  | 'r' => some '\r'
  | 't' => some '\t'
  | _ => none

/-- The UTF-16 unit begins a surrogate pair. -/
def isHigh (unit : Nat) : Bool := 0xD800 ≤ unit && unit < 0xDC00

/-- The UTF-16 unit ends a surrogate pair. -/
def isLow (unit : Nat) : Bool := 0xDC00 ≤ unit && unit < 0xE000

/-- The UTF-16 units of a text whose escapes name some of them. -/
inductive Piece where
  | char (c : Char)
  | unit (n : Nat)

/-- Reads the pieces of a text after its opening quote, with the rest after the closing
one. -/
def readPieces? : Nat → Text → Option (List Piece × Text)
  | 0, _ => none
  | _ + 1, [] => none
  | steps + 1, c :: rest =>
    if c = '"' then some ([], rest)
    else if c.toNat < 0x20 then none
    else if c = '\\' then
      match rest with
      | [] => none
      | 'u' :: rest => do
        let (unit, rest) ← readUnit? rest
        let (pieces, rest) ← readPieces? steps rest
        return (.unit unit :: pieces, rest)
      | e :: rest => do
        let c ← shortEscape? e
        let (pieces, rest) ← readPieces? steps rest
        return (.char c :: pieces, rest)
    else do
      let (pieces, rest) ← readPieces? steps rest
      return (.char c :: pieces, rest)

/-- The text of the pieces, if surrogates stand in pairs. -/
def joinPieces? : List Piece → Option Text
  | [] => some []
  | .char c :: rest => (joinPieces? rest).map (c :: ·)
  | .unit a :: .unit b :: rest =>
    if isHigh a && isLow b then
      (joinPieces? rest).map
        (Char.ofNat (0x10000 + (a - 0xD800) * 1024 + (b - 0xDC00)) :: ·)
    else if isHigh a || isLow a then none
    else (joinPieces? (.unit b :: rest)).map (Char.ofNat a :: ·)
  | .unit a :: rest =>
    if isHigh a || isLow a then none else (joinPieces? rest).map (Char.ofNat a :: ·)

/-- The value of decimal digits. -/
def decimal (digits : Text) : Nat :=
  digits.foldl (fun n c => n * 10 + (c.toNat - '0'.toNat)) 0

/-- The character is a decimal digit. -/
def isDigit (c : Char) : Bool := '0' ≤ c && c ≤ '9'

/-- The digits of a fraction, if the text begins with one, and the rest. -/
def readFraction (text : Text) : Text × Text :=
  match text with
  | '.' :: rest =>
    let digits := rest.takeWhile isDigit
    if digits = [] then ([], text) else (digits, rest.dropWhile isDigit)
  | _ => ([], text)

/-- The exponent, if the text begins with one, and the rest. -/
def readExponent (text : Text) : Int × Text :=
  match text with
  | e :: rest =>
    if e = 'e' ∨ e = 'E' then
      let (negative, rest) := match rest with
        | '-' :: rest => (true, rest)
        | '+' :: rest => (false, rest)
        | rest => (false, rest)
      let digits := rest.takeWhile isDigit
      if digits = [] then (0, text)
      else
        let n : Int := decimal digits
        (if negative then -n else n, rest.dropWhile isDigit)
    else (0, text)
  | [] => (0, [])

/-- Reads a number without its sign. -/
def readUnsigned? (text : Text) : Option (Nat × Int × Text) :=
  let digits := text.takeWhile isDigit
  match digits with
  | [] => none
  | d :: _ =>
    let whole := if d = '0' then ['0'] else digits
    let (fraction, rest) := readFraction (text.drop whole.length)
    let (exponent, rest) := readExponent rest
    some (decimal (whole ++ fraction), exponent - fraction.length, rest)

/-- Reads a number. -/
def readNumber? (text : Text) : Option (Value × Text) :=
  match text with
  | '-' :: rest => do
    match Text.after? "Infinity".toList rest with
    | some rest => return (.other, rest)
    | none =>
      let (m, e, rest) ← readUnsigned? rest
      return (.number (-m) e, rest)
  | _ => do
    let (m, e, rest) ← readUnsigned? text
    return (.number m e, rest)

/-- The values that have names. -/
def names : List (Text × Value) :=
  [("null".toList, .null), ("true".toList, .bool true), ("false".toList, .bool false),
    ("NaN".toList, .other), ("Infinity".toList, .other)]

/-- Reads one of the names. -/
def readName? (text : Text) : Option (Value × Text) :=
  names.findSome? fun (name, value) => (Text.after? name text).map (value, ·)

/-- Reads a text after its opening quote. -/
def readText? (text : Text) : Option (Option Text × Text) := do
  let (pieces, rest) ← readPieces? (text.length + 1) text
  return (joinPieces? pieces, rest)

mutual

/-- Reads a value that begins with the first character. -/
def readValue? : Nat → Text → Option (Value × Text)
  | 0, _ => none
  | steps + 1, text =>
    match text with
    | [] => none
    | c :: rest =>
      if c = '"' then do
        let (t, rest) ← readText? rest
        return (match t with | some t => .text t | none => .other, rest)
      else if c = '[' then
        match skipSpace rest with
        | ']' :: rest => some (.list [], rest)
        | rest => do
          let (items, rest) ← readItems? steps rest
          return (.list items, rest)
      else if c = '\x7b' then
        match skipSpace rest with
        | '\x7d' :: rest => some (.object [], rest)
        | rest => do
          let (members, rest) ← readMembers? steps rest
          return (.object members, rest)
      else match readName? (c :: rest) with
        | some found => some found
        | none => readNumber? (c :: rest)

/-- Reads the items of a list and its closing bracket. -/
def readItems? : Nat → Text → Option (List Value × Text)
  | 0, _ => none
  | steps + 1, text => do
    let (value, rest) ← readValue? steps text
    match skipSpace rest with
    | ',' :: rest =>
      let (values, rest) ← readItems? steps (skipSpace rest)
      return (value :: values, rest)
    | ']' :: rest => return ([value], rest)
    | _ => none

/-- Reads the members of an object and its closing brace. -/
def readMembers? : Nat → Text → Option (List (Text × Value) × Text)
  | 0, _ => none
  | steps + 1, text =>
    match text with
    | '"' :: rest => do
      let (name, rest) ← readText? rest
      match skipSpace rest with
      | ':' :: rest =>
        let (value, rest) ← readValue? steps (skipSpace rest)
        let member := (name.getD [], value)
        match skipSpace rest with
        | ',' :: rest =>
          let (members, rest) ← readMembers? steps (skipSpace rest)
          return (member :: members, rest)
        | '\x7d' :: rest => return ([member], rest)
        | _ => none
      | _ => none
    | _ => none

end

/-- The value that a JSON text stands for. -/
def read? (text : Text) : Option Value :=
  match readValue? (2 * text.length + 2) (skipSpace text) with
  | some (value, rest) => if skipSpace rest = [] then some value else none
  | none => none

end ImportClosure.Json
