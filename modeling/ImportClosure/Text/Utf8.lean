import ImportClosure.Text.Basic

/-!
# `ImportClosure.Text.Utf8`: bytes and text

`encode` writes each character as one to four bytes. `decode` reads any bytes: each longest
run of bytes that begins a character and cannot be completed becomes one replacement
character, and so does each byte that begins no character.

The decoder reads one byte at a time. Between two bytes of a character it holds a `Pending`:
how many bytes are missing, the bounds of the next one and the bits read so far.
-/

set_option autoImplicit false

namespace ImportClosure.Text

/-- The character that stands for bytes that are no text. -/
def replacement : Char := Char.ofNat 0xFFFD

/-- A byte from its value. -/
def byte (n : Nat) : UInt8 := UInt8.ofNat n

/-- The bytes of one character. -/
def encodeChar (c : Char) : List UInt8 :=
  let n := c.toNat
  if n < 0x80 then [byte n]
  else if n < 0x800 then [byte (0xC0 + n / 64), byte (0x80 + n % 64)]
  else if n < 0x10000 then
    [byte (0xE0 + n / 4096), byte (0x80 + n / 64 % 64), byte (0x80 + n % 64)]
  else
    [byte (0xF0 + n / 262144), byte (0x80 + n / 4096 % 64), byte (0x80 + n / 64 % 64),
      byte (0x80 + n % 64)]

/-- The bytes of a text. -/
def encode (text : Text) : List UInt8 := text.flatMap encodeChar

/-- The number of bytes of a text. -/
def byteLength (text : Text) : Nat := (encode text).length

/-- A character that is read in part. -/
structure Pending where
  /-- The number of bytes still missing. -/
  missing : Nat
  /-- The least value of the next byte. -/
  low : Nat
  /-- The greatest value of the next byte. -/
  high : Nat
  /-- The bits read so far. -/
  value : Nat

/-- What the first byte of a character asks for, if it is one of several. -/
def Pending.ofLead? (b : Nat) : Option Pending :=
  if 0xC2 ≤ b ∧ b ≤ 0xDF then some ⟨1, 0x80, 0xBF, b % 32⟩
  else if b = 0xE0 then some ⟨2, 0xA0, 0xBF, 0⟩
  else if b = 0xED then some ⟨2, 0x80, 0x9F, 13⟩
  else if 0xE1 ≤ b ∧ b ≤ 0xEF then some ⟨2, 0x80, 0xBF, b % 16⟩
  else if b = 0xF0 then some ⟨3, 0x90, 0xBF, 0⟩
  else if 0xF1 ≤ b ∧ b ≤ 0xF3 then some ⟨3, 0x80, 0xBF, b % 8⟩
  else if b = 0xF4 then some ⟨3, 0x80, 0x8F, 4⟩
  else none

/-- Reads a byte at the start of a character: the character it completes and what it leaves
pending. -/
def leadStep (b : Nat) : Text × Option Pending :=
  if b < 0x80 then ([Char.ofNat b], none)
  else match Pending.ofLead? b with
    | some p => ([], some p)
    | none => ([replacement], none)

/-- Reads the next byte of a pending character. A byte that does not fit gives the pending
character up and begins another. -/
def Pending.step (p : Pending) (b : Nat) : Text × Option Pending :=
  if p.low ≤ b ∧ b ≤ p.high then
    let value := p.value * 64 + b % 64
    if p.missing = 1 then ([Char.ofNat value], none)
    else ([], some ⟨p.missing - 1, 0x80, 0xBF, value⟩)
  else
    let (text, next) := leadStep b
    (replacement :: text, next)

/-- Decodes the bytes after those that left `pending`. -/
def decodeFrom : Option Pending → List UInt8 → Text
  | none, [] => []
  | some _, [] => [replacement]
  | none, b :: rest =>
    let (text, next) := leadStep b.toNat
    text ++ decodeFrom next rest
  | some p, b :: rest =>
    let (text, next) := p.step b.toNat
    text ++ decodeFrom next rest

/-- The text that the bytes stand for. -/
def decode (bytes : List UInt8) : Text := decodeFrom none bytes

/-- The text whose bytes these are, if there is one. -/
def decode? (bytes : List UInt8) : Option Text :=
  let text := decode bytes
  if encode text = bytes then some text else none

/-- The text with every line end, of one or two characters, as one line feed. -/
def unifyNewlines : Text → Text
  | [] => []
  | '\r' :: '\n' :: rest => '\n' :: unifyNewlines rest
  | '\r' :: rest => '\n' :: unifyNewlines rest
  | c :: rest => c :: unifyNewlines rest

end ImportClosure.Text
