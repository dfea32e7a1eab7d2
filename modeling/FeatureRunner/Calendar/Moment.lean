import FeatureRunner.Calendar.Date

/-!
Moments to the microsecond, with or without an offset from universal time, and their texts.
-/

namespace FeatureRunner.Calendar

/-- Microseconds in a day. -/
def dayLength : Nat := 86400000000

/-- A moment as the microseconds since the start of year 1 that its own clock shows, and how far
that clock is ahead of universal time, if it says so. -/
structure Moment where
  microseconds : Nat
  offset : Option Int
  deriving DecidableEq, Repr

namespace Moment

def date (moment : Moment) : Date :=
  Date.ofNumber (moment.microseconds / dayLength)

/-- The microseconds since the last midnight. -/
def timeOfDay (moment : Moment) : Nat :=
  moment.microseconds % dayLength

def hour (moment : Moment) : Nat := moment.timeOfDay / 3600000000
def minute (moment : Moment) : Nat := moment.timeOfDay / 60000000 % 60
def second (moment : Moment) : Nat := moment.timeOfDay / 1000000 % 60
def fraction (moment : Moment) : Nat := moment.timeOfDay % 1000000

/-- A moment some microseconds later, or earlier for a negative number. -/
def advance (moment : Moment) (microseconds : Int) : Moment :=
  { moment with microseconds := (moment.microseconds + microseconds).toNat }

/-- Decimal digits, at least `width` of them. -/
def padded (width value : Nat) : String :=
  let digits := Nat.toDigits 10 value
  String.ofList (List.replicate (width - digits.length) '0' ++ digits)

/-- The text of a moment without an offset: date and time of day, and the fraction of the second
in six digits unless it is zero. -/
def text (moment : Moment) : String :=
  let date := moment.date
  padded 4 date.year ++ "-" ++ padded 2 date.month ++ "-" ++ padded 2 date.day ++ "T" ++
    padded 2 moment.hour ++ ":" ++ padded 2 moment.minute ++ ":" ++ padded 2 moment.second ++
    (if moment.fraction == 0 then "" else "." ++ padded 6 moment.fraction)

/-- The text of a moment inside a file name. -/
def stamp (moment : Moment) : String :=
  let date := moment.date
  toString date.year ++ padded 2 date.month ++ padded 2 date.day ++ "_" ++
    padded 2 moment.hour ++ padded 2 moment.minute ++ padded 2 moment.second

/-- The microseconds from one moment to another. Moments compare only if both or neither have an
offset. -/
def until? (start finish : Moment) : Option Int :=
  match start.offset, finish.offset with
  | none, none => some ((finish.microseconds : Int) - start.microseconds)
  | some early, some late =>
    some ((finish.microseconds - late) - (start.microseconds - early))
  | _, _ => none

end Moment

end FeatureRunner.Calendar
