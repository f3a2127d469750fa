import Intake.Text.Hidden

/-!
# Text — Quoted — the literal form of a text

A text is quoted by apostrophes, or by double quotes when it holds an apostrophe and no double
quote.  The quote in use and the backslash are escaped, and so is every character that is not
printed as itself.
-/

namespace Intake.Text.Quoted

def apostrophe : Char := '\x27'

def doubleQuote : Char := '\x22'

def backslash : Char := '\x5C'

/-- The quote that a text is put between. -/
def quoteFor (s : List Char) : Char :=
  if apostrophe ∈ s ∧ doubleQuote ∉ s then doubleQuote else apostrophe

/-- A number in lower-case hexadecimal, filled with zeros to the given width. -/
def hex (width n : Nat) : List Char :=
  let digits := Nat.toDigits 16 n
  List.replicate (width - digits.length) '0' ++ digits

/-- An escape by number: two, four or eight hexadecimal digits, the fewest that hold the
character. -/
def numbered (c : Char) : List Char :=
  if c.toNat < 0x100 then backslash :: 'x' :: hex 2 c.toNat
  else if c.toNat < 0x10000 then backslash :: 'u' :: hex 4 c.toNat
  else backslash :: 'U' :: hex 8 c.toNat

def escape (quote c : Char) : List Char :=
  if c = quote ∨ c = backslash then [backslash, c]
  else if c = '\n' then [backslash, 'n']
  else if c = '\t' then [backslash, 't']
  else if c = '\r' then [backslash, 'r']
  else if isHidden c then numbered c
  else [c]

def encode (s : List Char) : List Char :=
  quoteFor s :: s.flatMap (escape (quoteFor s)) ++ [quoteFor s]

example : encode ['a', '\n', '\x1c'] = ['\x27', 'a', '\x5C', 'n', '\x5C', 'x', '1', 'c', '\x27'] := by decide
example : encode ['i', 't', '\x27', 's'] = ['\x22', 'i', 't', '\x27', 's', '\x22'] := by decide

end Intake.Text.Quoted

namespace Intake.Text

/-- The literal form of a text. -/
def quoted (s : String) : String := String.ofList (Quoted.encode s.toList)

end Intake.Text
