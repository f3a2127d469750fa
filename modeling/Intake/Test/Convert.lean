import Intake.Calendar.IsoReader
import Intake.Number.Decimal
import Intake.Number.Integer
import Intake.Test
import Intake.Value

/-!
# Test — Convert — what a test makes of a text

Some tests change a text before they look at it.  Coercion, which is always made, reads a date from
its ISO 8601 form.  Conversion, which is made only where the options ask for it, reads integers,
numbers and truth values.  A text that cannot be read is left as it is; an integer numeral that is
too long is a fault.
-/

namespace Intake

/-- The truth value that a text denotes, in any case and with white space around it. -/
def truthValue? (s : String) : Option Bool :=
  match String.ofList ((Text.strip s.toList).map Char.toLower) with
  | "true"  => some true
  | "1"     => some true
  | "false" => some false
  | "0"     => some false
  | _       => none

namespace Test

def coerce : Test → Value → Value
  | .date, .text s =>
    match Calendar.Moment.read? s with
    | some m => .moment m
    | none   => .text s
  | _,     v       => v

def convert : Test → Value → Except Fault Value
  | .integer .., .text s =>
    if Number.Integer.isNumeral s then do return .int (← Number.Integer.read s) else .ok (.text s)
  | .number ..,  .text s =>
    if Number.Integer.isNumeral s then do return .int (← Number.Integer.read s)
    else match Binary64.read? s with
      | some x => .ok (.float x)
      | none   => .ok (.text s)
  | .boolean,    .text s =>
    match truthValue? s with
    | some b => .ok (.bool b)
    | none   => .ok (.text s)
  | _,           v       => .ok v

end Test

end Intake
