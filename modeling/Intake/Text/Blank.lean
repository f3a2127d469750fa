/-!
# Text — Blank — white space

The white space of the Unicode standard together with the four separators U+001C to U+001F, and the
two ways of stripping it from the ends of a text.
-/

namespace Intake.Text

/-- White space: the line and column controls, the four information separators and the spaces of
Unicode. -/
def isBlank (c : Char) : Bool :=
  let n := c.toNat
  (0x09 ≤ n && n ≤ 0x0D) || (0x1C ≤ n && n ≤ 0x20) || n == 0x85 || n == 0xA0 || n == 0x1680
    || (0x2000 ≤ n && n ≤ 0x200A) || n == 0x2028 || n == 0x2029 || n == 0x202F || n == 0x205F
    || n == 0x3000

/-- White space around a numeral, which the four information separators are not. -/
def isNumeralBlank (c : Char) : Bool :=
  isBlank c && !(0x1C ≤ c.toNat && c.toNat ≤ 0x1F)

/-- A text without the characters of a class at its two ends. -/
def stripped (p : Char → Bool) (s : List Char) : List Char :=
  ((s.dropWhile p).reverse.dropWhile p).reverse

/-- A text without the white space at its two ends. -/
def strip (s : List Char) : List Char := stripped isBlank s

example : strip [' ', 'a', ' ', 'b', '\t', '\x1c'] = ['a', ' ', 'b'] := by decide
example : isNumeralBlank '\x1c' = false := by decide

end Intake.Text
