/-!
Days of the calendar and their numbers: day 0 is the first of January of year 1, and leap years
follow the four-hundred-year rule.
-/

namespace FeatureRunner.Calendar

def isLeap (year : Nat) : Bool :=
  year % 4 == 0 && (year % 100 != 0 || year % 400 == 0)

def daysInMonth (year month : Nat) : Nat :=
  if month == 2 then (if isLeap year then 29 else 28)
  else if month == 4 || month == 6 || month == 9 || month == 11 then 30
  else 31

/-- A day by year, month and day of the month, each counted from 1. -/
structure Date where
  year : Nat
  month : Nat
  day : Nat
  deriving DecidableEq, Repr

/-- How many days lie before a year. -/
def daysBeforeYear (year : Nat) : Nat :=
  let past := year - 1
  past * 365 + past / 4 - past / 100 + past / 400

/-- How many days of a year lie before a month. -/
def daysBeforeMonth (year : Nat) : Nat → Nat
  | 0 | 1 => 0
  | month + 2 => daysBeforeMonth year (month + 1) + daysInMonth year (month + 1)

/-- The number of a day. -/
def Date.number (date : Date) : Nat :=
  daysBeforeYear date.year + daysBeforeMonth date.year date.month + (date.day - 1)

/-- The month and day of the month of the given day of a year, looking from `month` on. -/
def monthFrom (year month : Nat) : Nat → Nat → Nat × Nat
  | 0, day => (month, day + 1)
  | left + 1, day =>
    if day < daysInMonth year month then (month, day + 1)
    else monthFrom year (month + 1) left (day - daysInMonth year month)

/-- The day with the given number. -/
def Date.ofNumber (number : Nat) : Date :=
  let cycles := number / 146097
  let rest := number % 146097
  let centuries := min (rest / 36524) 3
  let rest := rest - centuries * 36524
  let quads := rest / 1461
  let rest := rest % 1461
  let years := min (rest / 365) 3
  let rest := rest - years * 365
  let year := cycles * 400 + centuries * 100 + quads * 4 + years + 1
  let (month, day) := monthFrom year 1 11 rest
  ⟨year, month, day⟩

/-- The number of the Monday on which week 1 of a year begins: the week with its first Thursday. -/
def firstMonday (year : Nat) : Int :=
  let newYear := daysBeforeYear year
  let weekday := newYear % 7
  (newYear : Int) - weekday + (if 3 < weekday then 7 else 0)

/-- How many weeks a year has. -/
def weeksInYear (year : Nat) : Nat :=
  ((firstMonday (year + 1) - firstMonday year) / 7).toNat

end FeatureRunner.Calendar
