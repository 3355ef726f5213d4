import ImportClosure.Syntax.Tree
import ImportClosure.Text.Blank

/-!
# `ImportClosure.Syntax.Token`: the tokens of a module

The text of a module has no tokens of its own: whether a slash divides or begins a pattern
depends on the construct it stands in. A `Token` is therefore something that a construct
asks for at a place of the text, and `Token.read?` answers with the text of the token and the
rest, or with nothing if no such token stands there.

Between tokens there is layout, white space and comments, which `skipLayout` takes off.
`Check`s are questions about the text that take nothing off it; one of them is whether a
statement without a semicolon may end here.
-/

set_option autoImplicit false

namespace ImportClosure.Syntax

/-! ### Characters -/

/-- White space between tokens. -/
def isSpace (c : Char) : Bool :=
  (Text.isBlank c && !(28 ≤ c.toNat && c.toNat ≤ 31)) || c.toNat = 0xFEFF || c.toNat = 0x200B ||
    c.toNat = 0x2060

/-- The character ends a line. -/
def endsLine (c : Char) : Bool := c = '\n' || c.toNat = 0x2028 || c.toNat = 0x2029

/-- The printable ASCII characters that no name holds. -/
def signChars : Text := ":;`\"'@#.,|^&<=>+-*/\\%?!~()[]\x7b\x7d".toList

/-- A character that a name may hold. -/
def isNamePart (c : Char) : Bool := 0x20 ≤ c.toNat && !isSpace c && c ∉ signChars

/-- A character that a name may begin with. -/
def isNameStart (c : Char) : Bool := isNamePart c && !c.isDigit

/-- A hexadecimal digit. -/
def isHexDigit (c : Char) : Bool :=
  c.isDigit || ('a' ≤ c && c ≤ 'f') || ('A' ≤ c && c ≤ 'F')

/-! ### Layout -/

/-- Splits a text at the end of the block comment that it is inside of. -/
def closeBlock? : Text → Option (Text × Text)
  | [] => none
  | '*' :: '/' :: rest => some (['*', '/'], rest)
  | c :: rest => (closeBlock? rest).map fun (comment, rest) => (c :: comment, rest)

/-- The comment at the beginning of the text, and the rest. -/
def comment? (text : Text) : Option (Text × Text) :=
  match text with
  | '/' :: '/' :: rest =>
    some ('/' :: '/' :: rest.takeWhile (!endsLine ·), rest.dropWhile (!endsLine ·))
  | '/' :: '*' :: rest =>
    (closeBlock? rest).map fun (comment, rest) => ('/' :: '*' :: comment, rest)
  | _ => none

/-- The comments at the beginning of the text, and the rest. Each step takes off one comment
and the white space before it. -/
def layoutFrom : Nat → Text → List Tree × Text
  | 0, text => ([], text)
  | steps + 1, text =>
    let text := text.dropWhile isSpace
    match comment? text with
    | none => ([], text)
    | some (comment, rest) =>
      let (comments, rest) := layoutFrom steps rest
      (.leaf none .comment comment :: comments, rest)

/-- The comments at the beginning of the text, and the rest after all layout. -/
def skipLayout (text : Text) : List Tree × Text :=
  match text with
  | [] => ([], [])
  | c :: _ => if isSpace c || c = '/' then layoutFrom text.length text else ([], text)

/-- The rest after all layout. -/
def afterLayout (text : Text) : Text := (skipLayout text).2

/-- The layout at the beginning of the text. -/
def layoutOf (text : Text) : Text := text.take (text.length - (afterLayout text).length)

/-! ### Tokens -/

/-- The operators and other signs of more than one character, longer ones first. -/
def longSigns : List Text :=
  [">>>=", "...", "===", "!==", "**=", "<<=", ">>=", ">>>", "&&=", "||=", "??=", "=>", "==",
    "!=", "<=", ">=", "&&", "||", "??", "?.", "++", "--", "+=", "-=", "*=", "/=", "%=", "&=",
    "|=", "^=", "<<", ">>", "**"].map String.toList

/-- The longest sign at the beginning of the text. A question mark and a dot before a digit
are two signs. -/
def sign? (text : Text) : Option (Text × Text) :=
  match text with
  | '?' :: '.' :: c :: rest =>
    if c.isDigit then some (['?'], '.' :: c :: rest) else some (['?', '.'], c :: rest)
  | c :: rest =>
    match longSigns.find? (fun s => Text.startsWith s text) with
    | some s => some (s, text.drop s.length)
    | none => if c ∈ signChars then some ([c], rest) else none
  | [] => none

/-- An escaped character of a name, and the rest. -/
def nameEscape? (text : Text) : Option (Text × Text) :=
  match text with
  | '\\' :: 'u' :: '\x7b' :: rest =>
    let digits := rest.takeWhile isHexDigit
    match rest.dropWhile isHexDigit with
    | '\x7d' :: rest =>
      if digits = [] then none else some (['\\', 'u', '\x7b'] ++ digits ++ ['\x7d'], rest)
    | _ => none
  | '\\' :: 'u' :: rest =>
    if (rest.take 4).all isHexDigit && (rest.take 4).length = 4 then
      some ('\\' :: 'u' :: rest.take 4, rest.drop 4)
    else none
  | _ => none

/-- The characters of a name that follow, and the rest. -/
def nameParts : Nat → Text → Text × Text
  | 0, text => ([], text)
  | steps + 1, text =>
    let plain := text.takeWhile isNamePart
    let rest := text.drop plain.length
    match nameEscape? rest with
    | none => (plain, rest)
    | some (escape, rest) =>
      let (more, rest) := nameParts steps rest
      (plain ++ escape ++ more, rest)

/-- A name or keyword at the beginning of the text, and the rest. -/
def word? (text : Text) : Option (Text × Text) :=
  match text with
  | c :: _ =>
    if isNameStart c || (nameEscape? text).isSome then some (nameParts text.length text) else none
  | [] => none

/-- The keywords that are no names. -/
def reserved : List Text :=
  ["break", "case", "catch", "class", "const", "continue", "debugger", "default", "delete",
    "do", "else", "enum", "export", "extends", "false", "finally", "for", "function", "if",
    "import", "in", "instanceof", "new", "null", "return", "super", "switch", "this", "throw",
    "true", "try", "typeof", "var", "void", "while", "with"].map String.toList

/-- What follows the opening quote of a string, up to its closing quote. A string ends on its
line unless a backslash stands before the line end. -/
def closeString? (quote : Char) : Text → Option (Text × Text)
  | [] => none
  | '\\' :: '\r' :: '\n' :: rest =>
    (closeString? quote rest).map fun (t, rest) => ('\\' :: '\r' :: '\n' :: t, rest)
  | '\\' :: c :: rest => (closeString? quote rest).map fun (t, rest) => ('\\' :: c :: t, rest)
  | c :: rest =>
    if c = quote then some ([c], rest)
    else if c = '\n' || c = '\r' then none
    else (closeString? quote rest).map fun (t, rest) => (c :: t, rest)

/-- What follows the opening slash of a pattern, up to its closing slash, which does not
count between brackets. -/
def closePattern? : Bool → Text → Option (Text × Text)
  | _, [] => none
  | bracketed, '\\' :: c :: rest =>
    if c = '\n' then none
    else (closePattern? bracketed rest).map fun (t, rest) => ('\\' :: c :: t, rest)
  | bracketed, c :: rest =>
    if c = '\n' then none
    else if c = '/' && !bracketed then some ([c], rest)
    else
      let inside := if c = '[' then true else if c = ']' then false else bracketed
      (closePattern? inside rest).map fun (t, rest) => (c :: t, rest)

/-- A run of digits, with underscores between them. -/
def isDigits (c : Char) : Bool := c.isDigit || c = '_'

/-- The exponent of a number, if one follows. -/
def exponent (text : Text) : Text :=
  match text with
  | e :: rest =>
    if e = 'e' || e = 'E' then
      let sign := match rest with
        | '+' :: _ => ['+']
        | '-' :: _ => ['-']
        | _ => []
      let digits := (rest.drop sign.length).takeWhile isDigits
      if digits = [] then [] else e :: sign ++ digits
    else []
  | [] => []

/-- The fraction of a number, if one follows. -/
def fraction (text : Text) : Text :=
  match text with
  | '.' :: rest => '.' :: rest.takeWhile isDigits
  | _ => []

/-- The text of the number at the beginning of a text that begins with a digit or a dot. -/
def numberText (text : Text) : Text :=
  match text with
  | '0' :: base :: rest =>
    if base ∈ ['x', 'X', 'o', 'O', 'b', 'B'] then
      '0' :: base :: rest.takeWhile (fun c => isHexDigit c || c = '_' || c = 'n')
    else decimalText text
  | _ => decimalText text
where
  /-- The text of a decimal number. -/
  decimalText (text : Text) : Text :=
    let whole := text.takeWhile isDigits
    let rest := text.drop whole.length
    match rest with
    | 'n' :: _ => whole ++ ['n']
    | _ =>
      let part := fraction rest
      whole ++ part ++ exponent (rest.drop part.length)

/-- The piece of a template up to its end or to the next code inside. -/
def templatePiece : Text → Text
  | '`' :: _ => []
  | '$' :: '\x7b' :: _ => []
  | '\\' :: c :: rest => '\\' :: c :: templatePiece rest
  | c :: rest => c :: templatePiece rest
  | [] => []

/-- Tokens that a construct can ask for. -/
inductive Token where
  /-- A sign that is not part of a longer one. -/
  | sign (text : Text)
  /-- Characters as they are, even if a longer sign begins with them. -/
  | mark (text : Text)
  /-- A keyword. -/
  | word (text : Text)
  /-- The word `import` where it is called. -/
  | importWord
  /-- A name that is no keyword. -/
  | name
  /-- A name or keyword where both are names. -/
  | anyName
  /-- A name with `#` before it. -/
  | privateName
  | number
  | string
  | pattern
  /-- A piece of a template without code inside; not empty. -/
  | templatePiece
  /-- Text between the tags of markup; not empty. -/
  | markupText
  /-- A name in a tag. -/
  | markupName
  /-- A quoted text in a tag, which may go on over line ends. -/
  | markupString
  /-- A sign between two operands. -/
  | binarySign
  /-- A sign that assigns. -/
  | assignSign
  /-- A sign before an operand. -/
  | unarySign
  /-- The first line of a script that names its interpreter. -/
  | interpreterLine
  /-- A comment of markup, up to the end of the line. -/
  | markupComment
  /-- Anything: one word, number or string, or else one character. -/
  | anything
  /-- A block comment without an end. -/
  | openComment

/-- The signs between two operands. -/
def binarySigns : List Text :=
  ["+", "-", "*", "/", "%", "**", "<<", ">>", ">>>", "&", "|", "^", "&&", "||", "??", "<", ">",
    "<=", ">=", "==", "!=", "===", "!=="].map String.toList

/-- The signs that assign. -/
def assignSigns : List Text :=
  ["=", "+=", "-=", "*=", "/=", "%=", "**=", "<<=", ">>=", ">>>=", "&=", "|=", "^=", "&&=",
    "||=", "??="].map String.toList

/-- The signs before an operand. -/
def unarySigns : List Text := ["!", "~", "+", "-", "++", "--"].map String.toList

/-- A sign of a list, if the text begins with one. -/
def signAmong? (signs : List Text) (text : Text) : Option (Text × Text) :=
  (sign? text).filter fun (s, _) => s ∈ signs

/-- The first characters of a text and the rest, unless there are none. -/
def splitRun (taken text : Text) : Option (Text × Text) :=
  if taken = [] then none else some (taken, text.drop taken.length)

/-- A string at the beginning of the text, and the rest. -/
def string? (text : Text) : Option (Text × Text) :=
  match text with
  | c :: rest =>
    if c = '"' || c = '\'' then (closeString? c rest).map fun (t, rest) => (c :: t, rest)
    else none
  | [] => none

/-- A number at the beginning of the text, and the rest. -/
def number? (text : Text) : Option (Text × Text) :=
  match text with
  | '.' :: c :: _ => if c.isDigit then splitRun (numberText text) text else none
  | c :: _ => if c.isDigit then splitRun (numberText text) text else none
  | [] => none

namespace Token

/-- The kind of the leaf that a token makes. -/
def kind : Token → LeafKind
  | sign _ | mark _ | word _ | binarySign | assignSign | unarySign => .sign
  | importWord => .importWord
  | name | anyName => .name
  | string => .string
  | interpreterLine | markupComment => .comment
  | anything | openComment => .flaw
  | privateName | number | pattern | templatePiece | markupText | markupName | markupString =>
    .other

/-- Reads the token at the beginning of the text: its text and the rest. -/
def read? (token : Token) (text : Text) : Option (Text × Text) :=
  match token with
  | sign s => (sign? text).filter fun (t, _) => t = s
  | mark s => (Text.after? s text).map (s, ·)
  | word s => (word? text).filter fun (t, _) => t = s
  | importWord => (word? text).filter fun (t, _) => t = "import".toList
  | name => (word? text).filter fun (t, _) => t ∉ reserved
  | anyName => word? text
  | privateName =>
    match text with
    | '#' :: rest => (word? rest).map fun (t, rest) => ('#' :: t, rest)
    | _ => none
  | number => number? text
  | string => string? text
  | pattern =>
    match text with
    | '/' :: '/' :: _ | '/' :: '*' :: _ => none
    | '/' :: rest =>
      (closePattern? false rest).map fun (t, rest) =>
        let flags := rest.takeWhile fun c => 'a' ≤ c && c ≤ 'z'
        ('/' :: t ++ flags, rest.drop flags.length)
    | _ => none
  | templatePiece => splitRun (Syntax.templatePiece text) text
  | markupText => splitRun (text.takeWhile (· ∉ "<>\x7b\x7d".toList)) text
  | markupName =>
    match text with
    | c :: _ =>
      if isNameStart c then splitRun (text.takeWhile fun c => isNamePart c || c = '-') text
      else none
    | [] => none
  | markupString =>
    match text with
    | c :: rest =>
      if (c = '"' || c = '\'') && c ∈ rest then
        let value := rest.takeWhile (· ≠ c)
        some (c :: value ++ [c], rest.drop (value.length + 1))
      else none
    | [] => none
  | binarySign =>
    match text with
    | '/' :: '/' :: _ | '/' :: '*' :: _ => none
    | _ => signAmong? binarySigns text
  | assignSign => signAmong? assignSigns text
  | unarySign => signAmong? unarySigns text
  | interpreterLine =>
    match text with
    | '#' :: '!' :: _ => splitRun (text.takeWhile (!endsLine ·)) text
    | _ => none
  | markupComment =>
    if Text.startsWith "<!--".toList text || Text.startsWith "-->".toList text then
      splitRun (text.takeWhile (!endsLine ·)) text
    else none
  | anything =>
    match word? text, number? text, string? text, text with
    | some found, _, _, _ => some found
    | _, some found, _, _ => some found
    | _, _, some found, _ => some found
    | none, none, none, c :: rest => some ([c], rest)
    | none, none, none, [] => none
  | openComment =>
    match text with
    | '/' :: '*' :: rest => if (closeBlock? rest).isNone then some (text, []) else none
    | _ => none

end Token

/-! ### Checks -/

/-- Questions about the text that take nothing off it. -/
inductive Check where
  /-- A statement may end here without a semicolon. -/
  | statementEnd
  /-- The next token stands on the same line. -/
  | sameLine
  /-- Nothing is left but layout. -/
  | textEnd

/-- The characters that go on with a statement when they begin a line. -/
def goingOn : Text := "`,:;*%><=[(?^|&/".toList

/-- A statement ends before a line that begins with this text. -/
def endsBefore (text : Text) : Bool :=
  match text with
  | '.' :: rest => (rest.head?.map Char.isDigit).getD false
  | '+' :: rest => rest.head? = some '+'
  | '-' :: rest => rest.head? = some '-'
  | '!' :: rest => rest.head? ≠ some '='
  | c :: _ =>
    if c ∈ goingOn then false
    else match word? text with
      | some (w, _) => w ≠ "in".toList && w ≠ "instanceof".toList
      | none => true
  | [] => true

/-- Answers a check. A statement ends at the end of the text, before a closing brace, and
before most lines. -/
def Check.holds (check : Check) (text : Text) : Bool :=
  match check with
  | textEnd => afterLayout text = []
  | sameLine => !(layoutOf text).any endsLine
  | statementEnd =>
    match afterLayout text with
    | [] => true
    | '\x7d' :: _ => true
    | rest => (layoutOf text).any endsLine && endsBefore rest

end ImportClosure.Syntax
