import Intake.Fault
import Intake.Text.Blank
import Intake.Text.DecimalDigit

/-!
# Number — Integer — decimal numerals

Integers are written in base ten with a minus sign and no other decoration.  A numeral is read from
a text with digits of any script, white space around it and a sign; both directions refuse more than
`maxNumeralDigits` digits.
-/

namespace Intake.Number.Integer
open Intake.Text

/-- The digits of an integer, behind a minus sign when it is negative. -/
def digits (n : Int) : List Char :=
  if n < 0 then '-' :: Nat.toDigits 10 n.natAbs else Nat.toDigits 10 n.natAbs

/-- The decimal numeral of an integer, unless it is too long. -/
def write (n : Int) : Except Fault String :=
  if (Nat.toDigits 10 n.natAbs).length ≤ maxNumeralDigits then .ok (String.ofList (digits n))
  else .error .integerTooLong

/-- The sign in front of a text, and what follows it. -/
def signOf : List Char → Bool × List Char
  | '-' :: rest => (true, rest)
  | '+' :: rest => (false, rest)
  | rest        => (false, rest)

def isDigitRun (s : List Char) : Bool := !s.isEmpty && s.all isDecimalDigit

/-- An optional sign and one or more digits, with white space around them. -/
def isNumeral (text : String) : Bool := isDigitRun (signOf (strip text.toList)).2

/-- The integer that a numeral denotes.  The length of the digits is judged before what follows
them. -/
def read (text : String) : Except Fault Int :=
  let body  := signOf (text.toList.dropWhile isNumeralBlank)
  let run   := body.2.takeWhile isDecimalDigit
  let after := body.2.dropWhile isDecimalDigit
  if maxNumeralDigits < run.length then .error (.numeralTooLong run.length)
  else if run.isEmpty || !after.all isNumeralBlank then .error (.malformedNumeral text)
  else .ok (if body.1 then -(digitsValue run : Int) else digitsValue run)

example : (write (-42)).toOption = some "-42" := by decide
example : (read " +٣4 ").toOption = some 34 := by decide
example : (read "\x1c5").toOption = none := by decide
example : isNumeral "\x1c5" = true := by decide

end Intake.Number.Integer
