import ImportClosure.Text.Printable

/-!
# `ImportClosure.Text.Quoted`: text shown between quotes in a message

`quoted` shows a text so that a reader can tell every character: between apostrophes, or
between double quotes when the text holds an apostrophe and no double quote, with a
backslash before the quote and the backslash, short escapes for tab, line feed and carriage
return, and hexadecimal escapes for the other characters that are not printable.
-/

set_option autoImplicit false

namespace ImportClosure.Text

/-- The lower-case hexadecimal digits of a number, with zeros in front up to `width`. -/
def hex (width n : Nat) : Text :=
  let digits := Nat.toDigits 16 n
  List.replicate (width - digits.length) '0' ++ digits

/-- One character inside quotes. -/
def quotedChar (quote c : Char) : Text :=
  if c = quote || c = '\\' then ['\\', c]
  else if c = '\t' then ['\\', 't']
  else if c = '\n' then ['\\', 'n']
  else if c = '\r' then ['\\', 'r']
  else if isPrintable c then [c]
  else if c.toNat < 0x100 then '\\' :: 'x' :: hex 2 c.toNat
  else if c.toNat < 0x10000 then '\\' :: 'u' :: hex 4 c.toNat
  else '\\' :: 'U' :: hex 8 c.toNat

/-- The quote that a text is shown between. -/
def quoteFor (text : Text) : Char :=
  if '\'' ∈ text ∧ '"' ∉ text then '"' else '\''

/-- The text between quotes. -/
def quoted (text : Text) : Text :=
  let quote := quoteFor text
  quote :: text.flatMap (quotedChar quote) ++ [quote]

end ImportClosure.Text
