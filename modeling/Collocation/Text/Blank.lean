/-!
# Blank characters

The characters of the Unicode property `White_Space`, and texts without blanks at their ends.
-/

set_option autoImplicit false

namespace Collocation.Text

/-- The blank characters are the twenty-five of the Unicode property `White_Space`. -/
def isBlank (c : Char) : Bool :=
  let n := c.toNat
  (9 ≤ n && n ≤ 13) || n == 0x20 || n == 0x85 || n == 0xA0 || n == 0x1680 ||
    (0x2000 ≤ n && n ≤ 0x200A) || n == 0x2028 || n == 0x2029 || n == 0x202F ||
    n == 0x205F || n == 0x3000

/-- A text without the blanks in front of it. -/
def trimLeft (text : List Char) : List Char :=
  text.dropWhile isBlank

/-- A text without the blanks in front of it and behind it. -/
def trim (text : List Char) : List Char :=
  (trimLeft (trimLeft text).reverse).reverse

example : ['\t', ' ', '\u0085', '\u00a0', '\u2003', '\u2028', '\u3000'].all isBlank := by decide

example : ['\x08', '\x0e', '\u180e', '\u200b', '\u2060', '\ufeff'].any isBlank = false := by decide

end Collocation.Text
