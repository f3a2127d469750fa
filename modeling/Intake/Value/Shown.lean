import Intake.Calendar.IsoWriter
import Intake.Number.Integer
import Intake.Number.Shortest
import Intake.Text.Quoted
import Intake.Value

/-!
# Value — Shown — values in messages

A value has a literal form, which shows its structure, and a display form, in which a text stands
for itself and dates and moments are written as ISO 8601.  Within a list, tuple or record everything
is literal.  Showing an integer of too many digits is a fault.
-/

namespace Intake

namespace Calendar

/-- Numbers as arguments of a call. -/
def arguments (ns : List Nat) : String := ", ".intercalate (ns.map toString)

def Date.literal (d : Date) : String :=
  "datetime.date(" ++ arguments [d.year, d.month, d.day] ++ ")"

/-- Days, seconds and microseconds, the latter two not negative; what is zero is left out. -/
def durationLiteral (microseconds : Int) : String :=
  let days    := microseconds.fdiv microsecondsPerDay
  let rest    := (microseconds.fmod microsecondsPerDay).toNat
  let parts   := [("days", days), ("seconds", (rest / microsecondsPerSecond : Nat)),
    ("microseconds", (rest % microsecondsPerSecond : Nat))].filter (·.2 != 0)
  "datetime.timedelta(" ++ ", ".intercalate (parts.map fun p => p.1 ++ "=" ++ toString p.2) ++ ")"

def Offset.literal (o : Offset) : String :=
  if o.microseconds = 0 then "datetime.timezone.utc"
  else "datetime.timezone(" ++ durationLiteral o.microseconds ++ ")"

/-- Seconds and microseconds are left out if they are zero, the seconds only together with the
microseconds. -/
def Moment.literal (m : Moment) : String :=
  let c := m.clock
  let fine :=
    if c.microsecond ≠ 0 then [c.second, c.microsecond]
    else if c.second ≠ 0 then [c.second]
    else []
  "datetime.datetime(" ++ arguments ([m.date.year, m.date.month, m.date.day, c.hour, c.minute] ++ fine)
    ++ (match m.offset with
      | some o => ", tzinfo=" ++ o.literal
      | none   => "") ++ ")"

end Calendar

namespace Value

mutual

/-- The literal form of a value. -/
def literal : Value → Except Fault String
  | .null       => .ok "None"
  | .bool true  => .ok "True"
  | .bool false => .ok "False"
  | .int n      => Number.Integer.write n
  | .float x    => .ok (toString x)
  | .text s     => .ok (Text.quoted s)
  | .date d     => .ok d.literal
  | .moment m   => .ok m.literal
  | .list xs    => do return "[" ++ ", ".intercalate (← literals xs) ++ "]"
  | .tuple [x]  => do return "(" ++ (← x.literal) ++ ",)"
  | .tuple xs   => do return "(" ++ ", ".intercalate (← literals xs) ++ ")"
  | .record es  => do return "\x7b" ++ ", ".intercalate (← entryLiterals es) ++ "\x7d"

def literals : List Value → Except Fault (List String)
  | []      => .ok []
  | x :: xs => do
    let s ← x.literal
    return s :: (← literals xs)

def entryLiterals : Entries → Except Fault (List String)
  | []             => .ok []
  | (k, v) :: rest => do
    let key ← k.literal
    let value ← v.literal
    return (key ++ ": " ++ value) :: (← entryLiterals rest)

end

/-- The display form of a value. -/
def display : Value → Except Fault String
  | .text s   => .ok s
  | .date d   => .ok (String.ofList d.iso)
  | .moment m => .ok (String.ofList (m.isoWith ' '))
  | v         => v.literal

example : (literal (.tuple [.int 1])).toOption = some "(1,)" := by decide +kernel
example : (literal (.record [(.text "a", .list [.null])])).toOption = some "\x7b'a': [None]\x7d" := by
  decide +kernel

end Value

end Intake
