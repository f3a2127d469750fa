import Intake.Calendar.Date

/-!
# Calendar — Moment — a date with a time of day

A time of day is exact to the microsecond.  A moment is local when it has no offset; with an offset
from universal time, which is less than a day either way, it also names an instant.
-/

namespace Intake.Calendar

def IsClock (hour minute second microsecond : Nat) : Prop :=
  hour < 24 ∧ minute < 60 ∧ second < 60 ∧ microsecond < 1000000

instance (hour minute second microsecond : Nat) : Decidable (IsClock hour minute second microsecond) :=
  inferInstanceAs (Decidable (_ ∧ _))

/-- A time of day. -/
structure Clock where
  hour        : Nat
  minute      : Nat
  second      : Nat
  microsecond : Nat
  valid       : IsClock hour minute second microsecond
deriving DecidableEq

def Clock.midnight : Clock := ⟨0, 0, 0, 0, by decide⟩

def Clock.ofParts? (hour minute second microsecond : Nat) : Option Clock :=
  if h : IsClock hour minute second microsecond then some ⟨hour, minute, second, microsecond, h⟩
  else none

def microsecondsPerSecond : Nat := 1000000

def microsecondsPerDay : Nat := 86400 * microsecondsPerSecond

/-- The microseconds since midnight. -/
def Clock.number (c : Clock) : Nat :=
  (3600 * c.hour + 60 * c.minute + c.second) * microsecondsPerSecond + c.microsecond

/-- What local time is ahead of universal time, in microseconds. -/
structure Offset where
  microseconds : Int
  valid        : microseconds.natAbs < microsecondsPerDay
deriving DecidableEq

def Offset.utc : Offset := ⟨0, by decide⟩

def Offset.ofMicroseconds? (n : Int) : Option Offset :=
  if h : n.natAbs < microsecondsPerDay then some ⟨n, h⟩ else none

structure Moment where
  date   : Date
  clock  : Clock
  offset : Option Offset
deriving DecidableEq

namespace Moment

/-- Local time in microseconds, from the same origin for all moments. -/
def localTime (m : Moment) : Int := m.date.number * microsecondsPerDay + m.clock.number

/-- Two moments with offsets are the same if they are the same instant, and two without if they have
the same local time; a moment with an offset and one without are never the same. -/
def sameAs (a b : Moment) : Bool :=
  match a.offset, b.offset with
  | none,   none   => a.localTime == b.localTime
  | some x, some y => a.localTime - x.microseconds == b.localTime - y.microseconds
  | _,      _      => false

end Moment

end Intake.Calendar
