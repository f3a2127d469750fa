import Intake.Number.Binary64
import Intake.Number.Integer

/-!
# Number — Decimal — reading a double

A decimal text is a sign, digits of any script with single underscores between them, a fraction and
an exponent, or one of the names of infinity and not-a-number.  It is rounded once, from the exact
value of its digits.
-/

namespace Intake

/-- The number `± significand · 10 ^ exponent`. -/
structure Decimal where
  negative    : Bool
  significand : Nat
  exponent    : Int
deriving DecidableEq

namespace Decimal
open Intake.Text

/-- The text without its underscores, each of which stands between two digits. -/
def joinDigits : Char → List Char → Option (List Char)
  | before, []          => if before = '_' then none else some []
  | before, '_' :: rest => if before.isDigit then joinDigits '_' rest else none
  | before, c :: rest   =>
    if before = '_' && !c.isDigit then none else (joinDigits c rest).map (c :: ·)

/-- The exponent mark with its digits, up to the end of the text. -/
def readExponent : List Char → Option Int
  | []        => some 0
  | c :: rest =>
    let (negative, digits) := Number.Integer.signOf rest
    if (c = 'e' || c = 'E') && Number.Integer.isDigitRun digits && digits.all Char.isDigit then
      some (if negative then -(digitsValue digits : Int) else digitsValue digits)
    else none

/-- The fraction behind a point, and what follows it. -/
def fractionOf : List Char → List Char × List Char
  | '.' :: rest => (rest.takeWhile Char.isDigit, rest.dropWhile Char.isDigit)
  | rest        => ([], rest)

/-- Digits with an optional fraction, at least one digit in all, and an optional exponent. -/
def readUnsigned (negative : Bool) (s : List Char) : Option Decimal := do
  let whole := s.takeWhile Char.isDigit
  let (fraction, rest) := fractionOf (s.dropWhile Char.isDigit)
  if whole.isEmpty && fraction.isEmpty then none
  else
    let exponent ← readExponent rest
    return ⟨negative, digitsValue (whole ++ fraction), exponent - fraction.length⟩

/-- The double nearest to a decimal.  Decimals far beyond either end of the range are decided by
their order of magnitude alone. -/
def toBinary64 (d : Decimal) : Binary64 :=
  let order := ((Nat.toDigits 10 d.significand).length : Int) + d.exponent
  if d.significand = 0 || order < -330 then .zero d.negative
  else if 310 < order then .infinite d.negative
  else .ofRatio d.negative (d.significand * Nat.pow 10 d.exponent.toNat) (Nat.pow 10 (-d.exponent).toNat)

end Decimal

namespace Binary64
open Intake.Text

def readNamed? (negative : Bool) (s : List Char) : Option Binary64 :=
  match String.ofList (s.map Char.toLower) with
  | "inf"      => some (.infinite negative)
  | "infinity" => some (.infinite negative)
  | "nan"      => some .nan
  | _          => none

/-- The double that a text denotes, if it denotes one. -/
def read? (text : String) : Option Binary64 := do
  let s ← Decimal.joinDigits ' ' ((stripped isNumeralBlank text.toList).map plainDigit)
  let (negative, body) := Number.Integer.signOf s
  match readNamed? negative body with
  | some x => some x
  | none   => (Decimal.readUnsigned negative body).map Decimal.toBinary64

example : read? " 1_0.5 " = some (.ofRatio false 21 2) := by decide +kernel
example : read? "-Infinity" = some (.infinite true) := by decide +kernel
example : read? "-1e-400" = some (.zero true) := by decide +kernel
example : read? "1e999999999999" = some (.infinite false) := by decide +kernel
example : read? "1__0" = none := by decide +kernel
example : read? "." = none := by decide +kernel

end Binary64

end Intake
