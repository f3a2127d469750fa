import Intake.Text.Quoted

/-!
# Fault — why a computation gives no answer

A fault is not a verdict on the input: it says that a text could not be read or written as a number
at all, or that a check has no test.  Everything that may fault returns `Except Fault`.
-/

namespace Intake

/-- The longest decimal numeral that is read or written, in digits. -/
def maxNumeralDigits : Nat := 4300

inductive Fault where
  /-- An integer of more digits than are written. -/
  | integerTooLong
  /-- A numeral of more digits than are read. -/
  | numeralTooLong (digits : Nat)
  /-- A text that is no integer numeral, although it has the digits of one. -/
  | malformedNumeral (text : String)
  /-- A check whose test was left unspecified. -/
  | unspecifiedTest
deriving DecidableEq, Repr

namespace Fault

/-- The advice that closes both messages on length. -/
def limitAdvice : String := "; use sys.set_int_max_str_digits() to increase the limit"

/-- The literal form of a text is cut at two hundred characters in a message. -/
def excerpt (text : String) : String :=
  String.ofList ((Text.Quoted.encode text.toList).take 200)

def message : Fault → String
  | .integerTooLong        => "Exceeds the limit (4300 digits) for integer string conversion" ++ limitAdvice
  | .numeralTooLong digits =>
    "Exceeds the limit (4300 digits) for integer string conversion: value has "
      ++ toString digits ++ " digits" ++ limitAdvice
  | .malformedNumeral text => "invalid literal for int() with base 10: " ++ excerpt text
  | .unspecifiedTest       => ""

end Fault

end Intake
