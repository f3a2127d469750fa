import Intake.Pattern.Match
import Intake.Pattern.Reader

/-!
# Pattern — Standard — e-mail addresses and UUIDs

The two formats that have a test of their own.  An address is three runs without blanks and at
signs, put together by an at sign and a point; a UUID is five runs of hexadecimal digits in either
case, put together by hyphens.
-/

namespace Intake.Pattern.Node

/-- Exactly so many times. -/
def exactly (n : Nat) (a : Node) : Node := .repeated n (some n) .greedy a

def oneOrMore (a : Node) : Node := .repeated 1 none .greedy a

/-- Any character but an at sign and white space. -/
def addressCharacter : Node := .set true [.range 0x40 0x40, .category .blank false]

def email : Node :=
  sequence [oneOrMore addressCharacter, .char '@', oneOrMore addressCharacter, .char '.',
    oneOrMore addressCharacter]

example : (read "[^@\\s]+@[^@\\s]+\\.[^@\\s]+".toList).toOption = some email := by decide +kernel

/-- A digit of base sixteen, in either case. -/
def hexDigit : Node := .set false [.caseless 0x30 0x39, .caseless 0x61 0x66]

def uuid : Node :=
  sequence [exactly 8 hexDigit, .char '-', exactly 4 hexDigit, .char '-', exactly 4 hexDigit,
    .char '-', exactly 4 hexDigit, .char '-', exactly 12 hexDigit]

example :
    (read <| String.toList
      "[0-9a-f]\x7b8\x7d-[0-9a-f]\x7b4\x7d-[0-9a-f]\x7b4\x7d-[0-9a-f]\x7b4\x7d-[0-9a-f]\x7b12\x7d").toOption.map
      caseless = some uuid := by
  decide +kernel

end Intake.Pattern.Node
