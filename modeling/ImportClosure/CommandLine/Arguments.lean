import ImportClosure.Text.Digit
import ImportClosure.Text.Quoted

/-!
# `ImportClosure.CommandLine.Arguments`: what a command line asks for

A command line has two positionals, the root and the entry, and switches anywhere among them.
`Word.read` tells what one argument is: a switch by its name or by the beginning of one name
only, with a value after an equals sign if there is one; a positional, if it does not begin
with a dash, is a dash alone, a negative number or holds a blank; else an unknown switch.
After the argument `--` all arguments are positionals.

`Arguments.parse` reads the words from left to right. It answers with the `Arguments`, or with
the reason to stop: help is asked for, or there is a `Fault`. Surplus positionals and unknown
switches are faults only when all else is in order.
-/

set_option autoImplicit false

namespace ImportClosure.CommandLine

/-- The switches of the command line. -/
inductive Switch where
  | help
  | includeManifest
  | withMtimes
  | logLevel
  deriving DecidableEq, Repr

namespace Switch

/-- The names of the switches, in the order in which they are listed. -/
def names : List (Text × Switch) :=
  [("-h".toList, help), ("--help".toList, help),
    ("--include-manifest".toList, includeManifest), ("--with-mtimes".toList, withMtimes),
    ("--log-level".toList, logLevel)]

/-- The name of a switch in a fault. -/
def shown : Switch → Text
  | help => "-h/--help".toList
  | includeManifest => "--include-manifest".toList
  | withMtimes => "--with-mtimes".toList
  | logLevel => "--log-level".toList

end Switch

/-- What is wrong with a command line. -/
inductive Fault where
  /-- The beginning of several names. -/
  | ambiguous (argument : Text) (names : List Text)
  /-- A switch without the value that it needs. -/
  | noValue (switch : Switch)
  /-- A switch with a value that it does not take. -/
  | unusedValue (switch : Switch) (value : Text)
  /-- Positionals that are not given. -/
  | required (names : List Text)
  /-- Arguments that nothing takes. -/
  | unrecognized (arguments : List Text)
  deriving DecidableEq, Repr

namespace Fault

/-- Texts with another between them. -/
def join (between : Text) (texts : List Text) : Text := List.intercalate between texts

/-- The words for a fault. -/
def message : Fault → Text
  | ambiguous argument names =>
    "ambiguous option: ".toList ++ argument ++ " could match ".toList ++
      join ", ".toList names
  | noValue switch =>
    "argument ".toList ++ switch.shown ++ ": expected one argument".toList
  | unusedValue switch value =>
    "argument ".toList ++ switch.shown ++ ": ignored explicit argument ".toList ++
      Text.quoted value
  | required names =>
    "the following arguments are required: ".toList ++ join ", ".toList names
  | unrecognized arguments =>
    "unrecognized arguments: ".toList ++ join [' '] arguments

end Fault

/-- A value written in the same argument as a switch. -/
inductive Attached where
  | none
  /-- The value after an equals sign. -/
  | afterEquals (value : Text)
  /-- What follows a switch of one letter at once. -/
  | letters (rest : Text)
  deriving DecidableEq, Repr

/-- What one argument is. -/
inductive Word where
  | plain (text : Text)
  | switch (switch : Switch) (attached : Attached)
  | unknown (text : Text)
  deriving DecidableEq, Repr

namespace Word

/-- What an argument is that begins with a dash and names no switch. -/
def readNameless (argument : Text) : Word :=
  if Text.isNegativeNumber argument || ' ' ∈ argument then plain argument
  else unknown argument

/-- An argument split at its first equals sign. -/
def splitValue (argument : Text) : Text × Attached :=
  match argument.dropWhile (· ≠ '=') with
  | [] => (argument, .none)
  | _ :: value => (Text.before '=' argument, .afterEquals value)

/-- Reads an argument that begins with two dashes and is not the full name of a switch: the
beginning of a name, maybe with a value. -/
def readLong (argument : Text) : Except Fault Word :=
  let (start, attached) := splitValue argument
  match Switch.names.filter fun entry => Text.startsWith start entry.1 with
  | [] => .ok (readNameless argument)
  | [(_, s)] => .ok (switch s attached)
  | several => .error (.ambiguous argument (several.map (·.1)))

/-- Reads an argument that is not `--`. -/
def read (argument : Text) : Except Fault Word :=
  match argument with
  | '-' :: second :: rest =>
    let (name, attached) := splitValue argument
    match Switch.names.lookup argument, Switch.names.lookup name with
    | some s, _ => .ok (switch s .none)
    | none, some s => .ok (switch s attached)
    | none, none =>
      if second = '-' then readLong argument
      else match Switch.names.lookup ['-', second] with
        | some s => .ok (switch s (.letters rest))
        | none => .ok (readNameless argument)
  | _ => .ok (plain argument)

end Word

/-- What a command line asks for. -/
structure Arguments where
  root : Text
  entry : Text
  includeManifest : Bool
  withMtimes : Bool
  logLevel : Option Text
  deriving DecidableEq, Repr

/-- Why a command line is not run. -/
inductive Stop where
  | help
  | fault (fault : Fault)
  deriving DecidableEq, Repr

/-- What has been read of a command line. -/
structure Partial where
  positionals : List Text := []
  includeManifest : Bool := false
  withMtimes : Bool := false
  logLevel : Option Text := none
  /-- Positionals beyond the second and unknown switches. -/
  surplus : List Text := []
  /-- The last argument was taken as a positional. -/
  afterPositional : Bool := false
  deriving DecidableEq, Repr

namespace Partial

/-- All positionals are given. -/
def isFull (p : Partial) : Bool := 2 ≤ p.positionals.length

/-- Counts arguments as surplus. -/
def leave (p : Partial) (texts : List Text) : Partial :=
  { p with surplus := p.surplus ++ texts, afterPositional := false }

/-- Takes a positional, which is surplus if all are given. -/
def take (p : Partial) (text : Text) : Partial :=
  if p.isFull then p.leave [text]
  else { p with positionals := p.positionals ++ [text], afterPositional := true }

/-- Sets a switch that is written without a value. -/
def set (p : Partial) : Switch → Except Stop Partial
  | .help => .error .help
  | .includeManifest => .ok { p with includeManifest := true, afterPositional := false }
  | .withMtimes => .ok { p with withMtimes := true, afterPositional := false }
  | .logLevel => .error (.fault (.noValue .logLevel))

/-- Sets the level of the log. -/
def setLevel (p : Partial) (value : Text) : Partial :=
  { p with logLevel := some value, afterPositional := false }

/-- What the letters after `-h` mean: they may repeat the switch, and the first other letter
ends them. A dash or an equals sign makes the rest a value, which the switch does not take. -/
def setLetters (p : Partial) : Text → Except Stop Partial
  | '-' :: rest => .error (.fault (.unusedValue .help ('-' :: rest)))
  | 'h' :: '=' :: value => .error (.fault (.unusedValue .help value))
  | 'h' :: rest => p.setLetters rest
  | _ => p.set .help

/-- Sets a switch with what is written in the same argument. -/
def setAttached (p : Partial) (switch : Switch) : Attached → Except Stop Partial
  | .none => p.set switch
  | .afterEquals value =>
    if switch = .logLevel then .ok (p.setLevel value)
    else .error (.fault (.unusedValue switch value))
  | .letters rest => p.setLetters rest

/-- Reads the words before `--`. -/
def readWords : Partial → List Word → Except Stop Partial
  | p, [] => .ok p
  | p, .plain text :: rest => readWords (p.take text) rest
  | p, .unknown text :: rest => readWords (p.leave [text]) rest
  | p, .switch .logLevel .none :: .plain value :: rest => readWords (p.setLevel value) rest
  | p, .switch s attached :: rest => do
    let p ← p.setAttached s attached
    readWords p rest

/-- Takes a positional after `--`. Where it is that argument once more, it is empty. -/
def takeEscaped (p : Partial) (text : Text) : Partial :=
  if p.isFull then p.leave [text] else p.take (if text = ['-', '-'] then [] else text)

/-- Reads `--` and the arguments after it. It belongs to the positional before it or to the
one after it, and is surplus if there is neither. -/
def readEscaped (p : Partial) (rest : List Text) : Partial :=
  if p.afterPositional then rest.foldl takeEscaped p
  else match p.isFull, rest with
    | false, text :: rest => rest.foldl takeEscaped (p.take text)
    | _, _ => p.leave (['-', '-'] :: rest)

/-- The arguments, if all positionals are given and there is no surplus. -/
def finish (p : Partial) : Except Fault Arguments :=
  match p.positionals, p.surplus with
  | [root, entry], [] => .ok ⟨root, entry, p.includeManifest, p.withMtimes, p.logLevel⟩
  | [_, _], surplus => .error (.unrecognized surplus)
  | given, _ =>
    .error (.required (["root_path".toList, "entry_file".toList].drop given.length))

end Partial

/-- Reads a command line. -/
def Arguments.parse (arguments : List Text) : Except Stop Arguments := do
  let front := arguments.takeWhile (· ≠ ['-', '-'])
  let words ← (front.mapM Word.read).mapError Stop.fault
  let p ← Partial.readWords {} words
  let p := match arguments.drop front.length with
    | [] => p
    | _ :: rest => p.readEscaped rest
  p.finish.mapError Stop.fault

end ImportClosure.CommandLine
