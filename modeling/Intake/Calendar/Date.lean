/-!
# Calendar — Date — days of the proleptic Gregorian calendar

A date is a day of the years 1 to 9999.  It is also named by its place in the year and by the week
of the ISO calendar, whose first week is the one that holds the first Thursday.
-/

namespace Intake.Calendar

def isLeap (year : Nat) : Bool := year % 4 == 0 && (year % 100 != 0 || year % 400 == 0)

def daysInMonth (year month : Nat) : Nat :=
  match month with
  | 2              => if isLeap year then 29 else 28
  | 4 | 6 | 9 | 11 => 30
  | _              => 31

def daysInYear (year : Nat) : Nat := if isLeap year then 366 else 365

def IsDate (year month day : Nat) : Prop :=
  1 ≤ year ∧ year ≤ 9999 ∧ 1 ≤ month ∧ month ≤ 12 ∧ 1 ≤ day ∧ day ≤ daysInMonth year month

instance (year month day : Nat) : Decidable (IsDate year month day) :=
  inferInstanceAs (Decidable (_ ∧ _))

structure Date where
  year  : Nat
  month : Nat
  day   : Nat
  valid : IsDate year month day
deriving DecidableEq

/-- The days of all years before one. -/
def daysBeforeYear (year : Nat) : Nat :=
  let y := year - 1
  365 * y + y / 4 - y / 100 + y / 400

/-- The days of a year before one of its months. -/
def daysBeforeMonth (year : Nat) : Nat → Nat
  | 0     => 0
  | 1     => 0
  | m + 2 => daysBeforeMonth year (m + 1) + daysInMonth year (m + 1)

namespace Date

/-- The date of a year, month and day, if there is one. -/
def ofParts? (year month day : Nat) : Option Date :=
  if h : IsDate year month day then some ⟨year, month, day, h⟩ else none

/-- Days are numbered from the first of January of the year 1, which is a Monday. -/
def number (d : Date) : Nat := daysBeforeYear d.year + daysBeforeMonth d.year d.month + d.day

/-- The month and day at a place among the given months. -/
def monthDay? (year : Nat) : List Nat → Nat → Option (Nat × Nat)
  | [],      _ => none
  | m :: ms, n =>
    if n ≤ daysInMonth year m then some (m, n) else monthDay? year ms (n - daysInMonth year m)

/-- The `n`-th day of a year, counted from one. -/
def ofYearDay? (year n : Nat) : Option Date := do
  let (month, day) ← monthDay? year ((List.range 12).map (· + 1)) n
  ofParts? year month day

end Date

/-- The weekday of the first of January, from `0` for a Monday to `6` for a Sunday. -/
def firstWeekday (year : Nat) : Nat := daysBeforeYear year % 7

/-- A year has 53 weeks if it starts on a Thursday, or on a Wednesday and is a leap year. -/
def isLongYear (year : Nat) : Bool :=
  firstWeekday year == 3 || (firstWeekday year == 2 && isLeap year)

/-- The place in the year of the Monday of the first week: the Monday nearest to the first of
January. -/
def firstMonday (year : Nat) : Int :=
  if firstWeekday year ≤ 3 then 1 - (firstWeekday year : Int) else 8 - (firstWeekday year : Int)

/-- The date of a weekday in a week of the ISO calendar, Monday being the first day. -/
def Date.ofWeek? (year week weekday : Nat) : Option Date :=
  if 1 ≤ year ∧ 1 ≤ week ∧ (week ≤ 52 ∨ week = 53 ∧ isLongYear year)
      ∧ 1 ≤ weekday ∧ weekday ≤ 7 then
    let n := firstMonday year + (7 * (week - 1) + (weekday - 1) : Nat)
    if n ≤ 0 then ofYearDay? (year - 1) (n + daysInYear (year - 1)).toNat
    else if (daysInYear year : Int) < n then ofYearDay? (year + 1) (n - daysInYear year).toNat
    else ofYearDay? year n.toNat
  else none

example : Date.ofWeek? 2020 53 5 = Date.ofParts? 2021 1 1 := by decide
example : Date.ofWeek? 2025 1 1 = Date.ofParts? 2024 12 30 := by decide
example : Date.ofWeek? 9999 52 6 = none := by decide
example : Date.ofWeek? 2021 53 1 = none := by decide

end Intake.Calendar
