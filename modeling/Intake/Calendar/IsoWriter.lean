import Intake.Calendar.Moment

/-!
# Calendar — Iso writer — the extended ISO 8601 form

Dates and moments are written in the extended form.  Microseconds are written, with six digits, only
if there are any, and so are the seconds and microseconds of an offset.
-/

namespace Intake.Calendar

/-- A number in decimal, filled with zeros to a width. -/
def padded (width n : Nat) : List Char :=
  let ds := Nat.toDigits 10 n
  List.replicate (width - ds.length) '0' ++ ds

def Date.iso (d : Date) : List Char :=
  padded 4 d.year ++ '-' :: padded 2 d.month ++ '-' :: padded 2 d.day

/-- Six digits behind a point, or nothing. -/
def isoFraction (microsecond : Nat) : List Char :=
  if microsecond = 0 then [] else '.' :: padded 6 microsecond

def Clock.iso (c : Clock) : List Char :=
  padded 2 c.hour ++ ':' :: padded 2 c.minute ++ ':' :: padded 2 c.second ++ isoFraction c.microsecond

/-- The sign, hours and minutes of an offset, and its seconds if it has any. -/
def Offset.iso (o : Offset) : List Char :=
  let n := o.microseconds.natAbs
  let seconds := n / microsecondsPerSecond
  let rest := n % (60 * microsecondsPerSecond)
  (if o.microseconds < 0 then '-' else '+') :: padded 2 (seconds / 3600)
    ++ ':' :: padded 2 (seconds / 60 % 60)
    ++ (if rest = 0 then [] else ':' :: padded 2 (seconds % 60) ++ isoFraction (n % microsecondsPerSecond))

/-- A moment with a character between its date and its time of day. -/
def Moment.isoWith (separator : Char) (m : Moment) : List Char :=
  m.date.iso ++ separator :: m.clock.iso ++ (m.offset.map Offset.iso).getD []

def Moment.iso (m : Moment) : List Char := m.isoWith 'T'

end Intake.Calendar
