import ImportClosure.Text.Blank

/-!
# `ImportClosure.Settings.DotEnv`: files of variable bindings

A file binds a variable on each line: `NAME=value`, with `export ` allowed in front, blanks
around the equals sign and a comment at the end. A value between quotes may go on over line
ends and may hold escaped characters; one without quotes ends before a blank that a `#`
follows. A line that fits no binding is skipped, and its number is reported.

`${NAME}` in a value stands for the value of an earlier binding or of an environment
variable, and `${NAME:-text}` for `text` if there is none.

Only runs on a host read such files; nothing is proved from how they are read.
-/

set_option autoImplicit false

namespace ImportClosure.Settings.DotEnv

/-- White space inside a line. -/
def isGap (c : Char) : Bool := Text.isBlank c && c ≠ '\n'

/-- The rest after white space inside a line. -/
def skipGap (text : Text) : Text := text.dropWhile isGap

/-- The rest after a word and the white space that must follow it. -/
def skipExport (text : Text) : Text :=
  match Text.after? "export".toList text with
  | some (c :: rest) => if isGap c then skipGap rest else text
  | _ => text

/-- Splits a text at the closing quote of a value: the first quote without a backslash
before it, or else the last quote. `taken` is the value so far, reversed. -/
def closeQuote? (quote : Char) (taken : Text) : Text → Option (Text × Text)
  | [] => none
  | c :: rest =>
    if c = quote then
      if taken.head? = some '\\' then
        match closeQuote? quote (c :: taken) rest with
        | some found => some found
        | none => some (taken.reverse, rest)
      else some (taken.reverse, rest)
    else closeQuote? quote (c :: taken) rest

/-- What an escaped character stands for between double quotes. -/
def doubleEscapes : List (Char × Char) :=
  [('\\', '\\'), ('\'', '\''), ('"', '"'), ('a', '\x07'), ('b', '\x08'), ('f', '\x0c'),
    ('n', '\n'), ('r', '\r'), ('t', '\t'), ('v', '\x0b')]

/-- What an escaped character stands for between apostrophes. -/
def singleEscapes : List (Char × Char) := [('\\', '\\'), ('\'', '\'')]

/-- The text with its escapes replaced by what they stand for. -/
def unescape (escapes : List (Char × Char)) : Text → Text
  | '\\' :: c :: rest =>
    match escapes.lookup c with
    | some d => d :: unescape escapes rest
    | none => '\\' :: unescape escapes (c :: rest)
  | c :: rest => c :: unescape escapes rest
  | [] => []

/-- A comment begins here, after white space. -/
def beginsComment (text : Text) : Bool :=
  match text with
  | c :: rest => Text.isBlank c && (rest.dropWhile Text.isBlank).head? = some '#'
  | [] => false

/-- A value without quotes, cut before the first comment. -/
def cutComment : Text → Text
  | [] => []
  | c :: rest => if beginsComment (c :: rest) then [] else c :: cutComment rest

/-- Reads a value: the value and the rest after it. -/
def readValue? (text : Text) : Option (Text × Text) :=
  match text with
  | '\'' :: rest => (closeQuote? '\'' [] rest).map fun (t, rest) => (unescape singleEscapes t, rest)
  | '"' :: rest => (closeQuote? '"' [] rest).map fun (t, rest) => (unescape doubleEscapes t, rest)
  | _ =>
    some (Text.trimEnd (cutComment (text.takeWhile (· ≠ '\n'))), text.dropWhile (· ≠ '\n'))

/-- Reads the name of a binding. A line that is a comment has none. -/
def readName? (text : Text) : Option (Option Text × Text) :=
  match text with
  | '#' :: _ => some (none, text)
  | '\'' :: rest =>
    let name := rest.takeWhile (· ≠ '\'')
    match rest.dropWhile (· ≠ '\'') with
    | '\'' :: rest => if name = [] then none else some (some name, rest)
    | _ => none
  | _ =>
    let inName := fun c => c ≠ '=' && c ≠ '#' && !Text.isBlank c
    let name := text.takeWhile inName
    if name = [] then none else some (some name, text.dropWhile inName)

/-- The rest after a comment, if there is one. -/
def skipComment (text : Text) : Text :=
  match skipGap text with
  | '#' :: rest => rest.dropWhile (· ≠ '\n')
  | _ => text

/-- The rest after the end of a line. -/
def endLine? (text : Text) : Option Text :=
  match skipGap text with
  | [] => some []
  | '\n' :: rest => some rest
  | _ => none

/-- One line of a file. -/
inductive Line where
  | empty
  | binding (name : Text) (value : Option Text)
  /-- A line that fits no binding. -/
  | malformed

/-- The rest after the line that the text is in. -/
def skipLine (text : Text) : Text := (text.dropWhile (· ≠ '\n')).drop 1

/-- Reads what follows the name of a binding. -/
def readAfterName (name : Option Text) (text : Text) : Line × Text :=
  let text := skipGap text
  let value := match text with
    | '=' :: rest => (readValue? (skipGap rest)).map fun (t, rest) => (some t, rest)
    | _ => some (none, text)
  match value with
  | none => (.malformed, skipLine text)
  | some (value, rest) =>
    let rest := skipComment rest
    match endLine? rest with
    | none => (.malformed, skipLine rest)
    | some rest =>
      match name with
      | some name => (.binding name value, rest)
      | none => (.empty, rest)

/-- Reads one line, with the white space before it. -/
def readLine (text : Text) : Line × Text :=
  match text.dropWhile Text.isBlank with
  | [] => (.empty, [])
  | text =>
    let text := skipExport text
    match readName? text with
    | none => (.malformed, skipLine text)
    | some (name, rest) => readAfterName name rest

/-- Reads the lines of a file, each with the number of the line it begins on. -/
def readLines : Nat → Nat → Text → List (Nat × Line)
  | 0, _, _ => []
  | _ + 1, _, [] => []
  | steps + 1, line, text =>
    let (found, rest) := readLine text
    let taken := text.take (text.length - rest.length)
    (line, found) :: readLines steps (line + Text.newlines taken) rest

/-- The lines of a file. -/
def lines (text : Text) : List (Nat × Line) := readLines (text.length + 1) 1 text

/-- Binds a name, in the place of its earlier binding if it has one. -/
def rebind {α : Type} (name : Text) (value : α) : List (Text × α) → List (Text × α)
  | [] => [(name, value)]
  | (n, v) :: rest => if n = name then (n, value) :: rest else (n, v) :: rebind name value rest

/-- A reference to a variable at the beginning of the text: its name, the text to use if it
has no value, and the rest. -/
def reference? (text : Text) : Option (Text × Text × Text) := do
  let text ← Text.after? ['$', '\x7b'] text
  let inName := fun c => c ≠ '\x7d' && c ≠ ':'
  let name := text.takeWhile inName
  match text.dropWhile inName with
  | '\x7d' :: rest => return (name, [], rest)
  | ':' :: '-' :: rest =>
    match rest.dropWhile (· ≠ '\x7d') with
    | '\x7d' :: after => return (name, rest.takeWhile (· ≠ '\x7d'), after)
    | _ => none
  | _ => none

/-- The value with its references replaced. -/
def expand (value : Text → Option Text) : Nat → Text → Text
  | 0, text => text
  | _ + 1, [] => []
  | steps + 1, c :: rest =>
    match reference? (c :: rest) with
    | some (name, other, rest) => (value name).getD other ++ expand value steps rest
    | none => c :: expand value steps rest

/-- The bindings of a file, with references to earlier ones and to the environment
replaced. -/
def bindings (environment : List (Text × Text)) (text : Text) : List (Text × Option Text) :=
  (lines text).foldl (fun known (_, line) =>
    match line with
    | .binding name (some t) =>
      let value := fun n => match known.lookup n with
        | some v => some (v.getD [])
        | none => environment.lookup n
      rebind name (some (expand value (t.length + 1) t)) known
    | .binding name none => rebind name none known
    | .empty | .malformed => known) []

/-- The numbers of the lines that fit no binding. -/
def malformedLines (text : Text) : List Nat :=
  (lines text).filterMap fun (n, line) => match line with
    | .malformed => some n
    | _ => none

end ImportClosure.Settings.DotEnv
