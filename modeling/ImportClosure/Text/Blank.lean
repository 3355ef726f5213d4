import ImportClosure.Text.Basic

/-!
# `ImportClosure.Text.Blank`: white space

White space is every character that separates words or lines in any script: the controls
from tab to carriage return, the four information separators, the space characters and the
line and paragraph separators. A text is blank when it holds nothing else.
-/

set_option autoImplicit false

namespace ImportClosure.Text

/-- The character is white space. -/
def isBlank (c : Char) : Bool :=
  let n := c.toNat
  (9 ≤ n && n ≤ 13) || (28 ≤ n && n ≤ 32) || n == 0x85 || n == 0xA0 || n == 0x1680 ||
    (0x2000 ≤ n && n ≤ 0x200A) || n == 0x2028 || n == 0x2029 || n == 0x202F || n == 0x205F ||
    n == 0x3000

/-- The text holds white space only. The empty text is blank. -/
def allBlank (text : Text) : Bool := text.all isBlank

/-- The text without the white space at its end. -/
def trimEnd (text : Text) : Text := dropEndWhile isBlank text

end ImportClosure.Text
