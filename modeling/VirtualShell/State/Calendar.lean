/-! # The calendar

The date and the time of a moment in Coordinated Universal Time.
-/

namespace VirtualShell

/-- A moment: the seconds since the start of 1970, leap seconds not counted, and the nanoseconds of the
current second. -/
structure Moment where
  seconds : Nat
  nanoseconds : Nat
deriving DecidableEq, Repr

namespace Moment

def epoch : Moment := ⟨0, 0⟩

/-- The whole days since the start of 1970. -/
def days (m : Moment) : Nat := m.seconds / 86400

def hour (m : Moment) : Nat := m.seconds / 3600 % 24

def minute (m : Moment) : Nat := m.seconds / 60 % 60

def second (m : Moment) : Nat := m.seconds % 60

/-- The days since the first of March of the year 0 in the proleptic Gregorian calendar. -/
def marchDays (m : Moment) : Nat := m.days + 719468

/-- The day within a period of 400 years. -/
def dayOfEra (m : Moment) : Nat := m.marchDays % 146097

/-- The year within a period of 400 years, where years begin in March. -/
def yearOfEra (m : Moment) : Nat :=
  let d := m.dayOfEra
  (d - d / 1460 + d / 36524 - d / 146096) / 365

def dayOfMarchYear (m : Moment) : Nat :=
  let y := m.yearOfEra
  m.dayOfEra - (365 * y + y / 4 - y / 100)

def marchMonth (m : Moment) : Nat := (5 * m.dayOfMarchYear + 2) / 153

def month (m : Moment) : Nat := if m.marchMonth < 10 then m.marchMonth + 3 else m.marchMonth - 9

def year (m : Moment) : Nat :=
  m.yearOfEra + 400 * (m.marchDays / 146097) + (if m.month ≤ 2 then 1 else 0)

/-- The day of the month, counted from one. -/
def day (m : Moment) : Nat := m.dayOfMarchYear - (153 * m.marchMonth + 2) / 5 + 1

/-- The day of the week, counted from Monday as zero. -/
def weekday (m : Moment) : Nat := (m.days + 3) % 7

def isLeapYear (year : Nat) : Bool := year % 4 = 0 && (year % 100 ≠ 0 || year % 400 = 0)

def monthLengths (year : Nat) : List Nat :=
  [31, if isLeapYear year then 29 else 28, 31, 30, 31, 30, 31, 31, 30, 31, 30, 31]

def daysIn (year month : Nat) : Nat := (monthLengths year).getD (month - 1) 0

/-- The days of the months before a month of a year. -/
def daysBefore (year month : Nat) : Nat := ((monthLengths year).take (month - 1)).foldl Nat.add 0

/-- The day of the year, counted from one. -/
def ordinal (m : Moment) : Nat := daysBefore m.year m.month + m.day

/-- The week of the year when weeks begin on Sunday. -/
def sundayWeek (m : Moment) : Nat := (m.ordinal + 6 - (m.weekday + 1) % 7) / 7

/-- The week of the year when weeks begin on Monday. -/
def mondayWeek (m : Moment) : Nat := (m.ordinal + 6 - m.weekday) / 7

/-- The number of numbered weeks of a year whose first of January has the given weekday. -/
def weeksOf (year firstWeekday : Nat) : Nat :=
  if firstWeekday = 3 ∨ (firstWeekday = 2 ∧ isLeapYear year) then 53 else 52

/-- The year and the week in the numbering in which the first week holds the first Thursday. -/
def numberedWeek (m : Moment) : Nat × Nat :=
  let firstWeekday := (m.weekday + 371 - (m.ordinal - 1)) % 7
  let week := (m.ordinal + 9 - m.weekday) / 7
  if week = 0 then
    let length := if isLeapYear (m.year - 1) then 366 else 365
    (m.year - 1, weeksOf (m.year - 1) ((firstWeekday + 371 - length) % 7))
  else if weeksOf m.year firstWeekday < week then (m.year + 1, 1)
  else (m.year, week)

end Moment

end VirtualShell
