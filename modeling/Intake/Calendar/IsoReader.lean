import Intake.Calendar.Moment
import Intake.Text.Units

/-!
# Calendar — Iso reader — reading ISO 8601

A moment is read from a date in calendar or week form, basic or extended, and optionally one
separating character, a time of day and an offset.  A date alone is its midnight.  Every part is
read from the front of what is left; a character that is missing reads as the null character.
-/

namespace Intake.Calendar.Iso

/-- The first character, or the null character at the end of the text. -/
def front (s : List Char) : Char := s.headD '\x00'

/-- A number of exactly `k` ASCII digits, and what follows it. -/
def digits? : Nat → Nat → List Char → Option (Nat × List Char)
  | 0,     n, s      => some (n, s)
  | _ + 1, _, []     => none
  | k + 1, n, c :: s => if c.isDigit then digits? k (10 * n + (c.toNat - 0x30)) s else none

def number? (k : Nat) (s : List Char) : Option (Nat × List Char) := digits? k 0 s

/-- What follows a character that has to stand in front. -/
def expect? (c : Char) (s : List Char) : Option (List Char) :=
  if front s = c then some (s.drop 1) else none

/-- Where an extended week date ends: behind its weekday if it has one. -/
def extendedWeekWidth? (s : List Char) : Option Nat :=
  if 8 < s.length ∧ (s.drop 8).head? = some '-' then
    if s.length = 9 then none
    else if 10 < s.length ∧ (front (s.drop 10)).isDigit then some 8
    else some 10
  else some 8

/-- Where a basic week date ends.  Of two or more digits behind the week, an odd count holds no
weekday: its first digit is the separator. -/
def basicWeekWidth (s : List Char) : Nat :=
  let position := 7 + ((s.drop 7).takeWhile Char.isDigit).length
  if position < 9 then position else if position % 2 = 0 then 7 else 8

/-- The width of the date in front of a text. -/
def dateWidth? (s : List Char) : Option Nat :=
  if s.length = 7 then some 7
  else if front (s.drop 4) = '-' then
    if front (s.drop 5) = 'W' then extendedWeekWidth? s else some 10
  else if front (s.drop 4) = 'W' then some (basicWeekWidth s)
  else some 8

/-- The week of a year, and a weekday if the width has room for one. -/
def weekDate? (year width : Nat) (extended : Bool) (s : List Char) : Option Date := do
  let (week, rest) ← number? 2 s
  if (if extended then 8 else 7) < width then
    let rest ← if extended then expect? '-' rest else some rest
    let (weekday, _) ← number? 1 rest
    Date.ofWeek? year week weekday
  else Date.ofWeek? year week 1

/-- The date in front of a text, of a given width. -/
def date? (width : Nat) (s : List Char) : Option Date := do
  let (year, rest) ← number? 4 s
  let extended := front rest == '-'
  let rest := if extended then rest.drop 1 else rest
  if front rest = 'W' then weekDate? year width extended (rest.drop 1)
  else
    let (month, rest) ← number? 2 rest
    let rest ← if extended then expect? '-' rest else some rest
    let (day, _) ← number? 2 rest
    Date.ofParts? year month day

/-- The numbers of a time of day or of an offset, before any check of their range. -/
structure Reading where
  hour        : Nat := 0
  minute      : Nat := 0
  second      : Nat := 0
  microsecond : Nat := 0
  /-- Whether something was left unread. -/
  leftover    : Bool := false

/-- Whether something is left; a null character in front counts as the end of the text. -/
def isUnread (s : List Char) : Bool := front s != '\x00'

/-- What to do behind a two-digit component. -/
inductive Joint where
  /-- The text ends, with or without one unread character. -/
  | finish (leftover : Bool)
  /-- The next component follows. -/
  | component (rest : List Char)
  /-- A decimal fraction follows. -/
  | fraction (rest : List Char)
  | malformed

/-- Components are all separated by colons or none of them is. -/
def joint (colons : Bool) (s : List Char) : Joint :=
  match s with
  | []        => .finish false
  | [c]       => .finish (c != '\x00')
  | c :: rest =>
    if colons && c == ':' then .component rest
    else if c == '.' || c == ',' then .fraction rest
    else if colons then .malformed
    else .component (c :: rest)

/-- Up to six digits of a fraction of a second in microseconds, and whether anything but digits
follows them. -/
def fraction? (s : List Char) : Option (Nat × Bool) := do
  let k := min 6 s.length
  let (n, rest) ← number? k s
  return (n * Nat.pow 10 (6 - k), isUnread (rest.dropWhile Char.isDigit))

def withFraction? (r : Reading) (s : List Char) : Option Reading := do
  let (microsecond, leftover) ← fraction? s
  return { r with microsecond, leftover }

/-- Hours, minutes, seconds and a fraction, of which only the hours are needed. -/
def reading? (s : List Char) : Option Reading := do
  let (hour, rest) ← number? 2 s
  let colons := front rest == ':'
  match joint colons rest with
  | .malformed       => none
  | .finish leftover => return { hour, leftover }
  | .fraction rest   => withFraction? { hour } rest
  | .component rest  =>
    let (minute, rest) ← number? 2 rest
    match joint colons rest with
    | .malformed       => none
    | .finish leftover => return { hour, minute, leftover }
    | .fraction rest   => withFraction? { hour, minute } rest
    | .component rest  =>
      let (second, rest) ← number? 2 rest
      match joint colons rest with
      | .malformed       => none
      | .finish leftover => return { hour, minute, second, leftover }
      | .fraction rest   => withFraction? { hour, minute, second } rest
      | .component rest  => withFraction? { hour, minute, second } rest

/-- The offset behind its sign.  One without hours, minutes and seconds is that of universal time,
whatever its fraction. -/
def offset? (negative : Bool) (s : List Char) : Option Offset := do
  let r ← reading? s
  let seconds := 3600 * r.hour + 60 * r.minute + r.second
  let size : Int := (seconds * microsecondsPerSecond + r.microsecond : Nat)
  if r.leftover then none
  else if seconds = 0 then some .utc
  else Offset.ofMicroseconds? (if negative then -size else size)

def isOffsetMark (c : Char) : Bool := c == '+' || c == '-' || c == 'Z'

/-- A time of day with an optional offset.  What the time of day leaves unread in front of an offset
is passed over. -/
def clock? (s : List Char) : Option (Clock × Option Offset) := do
  let r ← reading? (s.takeWhile (!isOffsetMark ·))
  let clock ← Clock.ofParts? r.hour r.minute r.second r.microsecond
  match s.dropWhile (!isOffsetMark ·) with
  | []          => if r.leftover then none else return (clock, none)
  | 'Z' :: rest => if isUnread rest then none else return (clock, some .utc)
  | c :: rest   => return (clock, some (← offset? (c == '-') rest))

/-- The moment laid out in units. -/
def moment? (s : List Char) : Option Moment := do
  if s.length < 7 then none
  else
    let width ← dateWidth? s
    let date ← date? width s
    match s.drop width with
    | []        => return ⟨date, .midnight, none⟩
    | c :: rest =>
      let (clock, offset) ← clock? (rest.drop (c.utf8Size - 1))
      return ⟨date, clock, offset⟩

end Iso

/-- The moment that a text denotes, if it denotes one. -/
def Moment.read? (text : String) : Option Moment := Iso.moment? (Text.units text.toList)

/-- The date that a text of ten characters denotes in the extended calendar form. -/
def Date.read? (text : String) : Option Date :=
  if text.length = 10 then Iso.date? 10 text.toList else none

end Intake.Calendar
