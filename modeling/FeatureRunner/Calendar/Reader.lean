import FeatureRunner.Calendar.Moment

/-!
Reading a moment from text: a date with or without dashes or as a week and weekday, then, after
any one character, a time of day with or without colons, a fraction, and an offset.
-/

namespace FeatureRunner.Calendar

/-- Why a text is no moment. -/
inductive MomentError
  /-- The text does not have the form of a moment. -/
  | form
  | year (value : Nat)
  | month
  | day
  | hour
  | minute
  | second
  /-- The offset, in microseconds, is a day or more. -/
  | offset (microseconds : Int)
  deriving DecidableEq, Repr

def asciiDigit? (c : Char) : Option Nat :=
  if c.isDigit then some (c.toNat - '0'.toNat) else none

/-- Reads exactly `count` digits. -/
def readDigits? : Nat → Nat → List Char → Option (Nat × List Char)
  | 0, value, rest => some (value, rest)
  | _ + 1, _, [] => none
  | count + 1, value, c :: rest =>
    (asciiDigit? c).bind fun digit => readDigits? count (value * 10 + digit) rest

/-- Hours, minutes, seconds and microseconds, and whether something is left over after them. -/
structure ClockReading where
  parts : List Nat
  leftover : Bool

def ClockReading.part (reading : ClockReading) (index : Nat) : Nat :=
  reading.parts.getD index 0

def ClockReading.microseconds (reading : ClockReading) : Nat :=
  (reading.part 0 * 3600 + reading.part 1 * 60 + reading.part 2) * 1000000 + reading.part 3

/-- Reads the fraction of a second, of which six digits count. -/
def readFraction? (parts : List Nat) (text after : List Char) : Option ClockReading :=
  let size := min text.length 6
  match readDigits? size 0 text with
  | none => none
  | some (value, rest) =>
    some ⟨parts ++ List.replicate (3 - parts.length) 0 ++ [value * Nat.pow 10 (6 - size)],
      !(rest.dropWhile Char.isDigit ++ after).isEmpty⟩

/-- Reads `left` further two-digit parts of a time of day. Colons stand between all parts or
none. `after` is what follows the time of day in the whole text. -/
def readClockFrom? (after : List Char) :
    Nat → Option Bool → List Nat → List Char → Option ClockReading
  | 0, _, parts, text => readFraction? parts text after
  | left + 1, colons, parts, text =>
    match readDigits? 2 0 text with
    | none => none
    | some (value, rest) =>
      let parts := parts ++ [value]
      let colons := colons.getD ((rest ++ after).head? == some ':')
      match rest with
      | [] => some ⟨parts, !after.isEmpty⟩
      | c :: more =>
        if more.isEmpty && c.toNat < 128 then some ⟨parts, true⟩
        else if colons && c == ':' then readClockFrom? after left (some colons) parts more
        else if c == '.' || c == ',' then readFraction? parts more after
        else if colons then none
        else readClockFrom? after left (some colons) parts rest

def readClock? (text after : List Char) : Option ClockReading :=
  readClockFrom? after 3 none [] text

def beginsOffset (c : Char) : Bool :=
  c == '+' || c == '-' || c == 'Z'

/-- Reads a time of day with its offset in microseconds, if it has one. -/
def readTime? (text : List Char) : Option (ClockReading × Option Int) :=
  let clock := text.takeWhile (!beginsOffset ·)
  let after := text.dropWhile (!beginsOffset ·)
  match readClock? clock after, after with
  | none, _ => none
  | some reading, [] => if reading.leftover then none else some (reading, none)
  | some reading, 'Z' :: rest => if rest.isEmpty then some (reading, some 0) else none
  | some reading, sign :: rest =>
    match readClock? rest [] with
    | none => none
    | some offset =>
      if offset.leftover then none
      else some (reading, some
        (if sign == '-' then -(offset.microseconds : Int) else offset.microseconds))

/-- Where the date ends in a text of at least seven characters. -/
def dateLength (text : List Char) : Nat :=
  let at? := fun (index : Nat) => text.getD index ' '
  if text.length == 7 then 7
  else if at? 4 == '-' then
    if at? 5 == 'W' then
      if text.length > 8 && at? 8 == '-' then
        if text.length > 10 && (at? 10).isDigit then 8 else 10
      else 8
    else 10
  else if at? 4 == 'W' then
    let size := 7 + ((text.drop 7).takeWhile Char.isDigit).length
    if size < 9 then size else if size % 2 == 0 then 7 else 8
  else 8

/-- Reads a date that fills the whole text. -/
def readDate? (text : List Char) : Option Date :=
  match readDigits? 4 0 text with
  | none => none
  | some (year, rest) =>
    let (dashes, rest) := match rest with
      | '-' :: more => (true, more)
      | _ => (false, rest)
    let afterDash : List Char → Option (List Char) := fun left =>
      match dashes, left with
      | false, _ => some left
      | true, '-' :: more => some more
      | true, _ => none
    match rest with
    | 'W' :: more =>
      match readDigits? 2 0 more with
      | none => none
      | some (week, left) =>
        let day? := if left.isEmpty then some 1
          else (afterDash left).bind fun left => (readDigits? 1 0 left).map (·.1)
        day?.bind fun day =>
          if week == 0 || weeksInYear year < week || day == 0 || 7 < day || year == 0 then none
          else
            let number := firstMonday year + (week - 1) * 7 + (day - 1)
            if number < 0 then none else some (Date.ofNumber number.toNat)
    | _ =>
      match readDigits? 2 0 rest with
      | none => none
      | some (month, left) =>
        (afterDash left).bind fun left =>
          match readDigits? 2 0 left with
          | some (day, []) => some ⟨year, month, day⟩
          | _ => none

/-- A moment from its parts, or the first part that is out of range. -/
def Moment.ofParts (date : Date) (clock : ClockReading) (offset : Option Int) :
    Except MomentError Moment :=
  if (offset.map fun ahead => decide (dayLength ≤ ahead.natAbs)).getD false then
    .error (.offset (offset.getD 0))
  else if date.year == 0 || 9999 < date.year then .error (.year date.year)
  else if date.month == 0 || 12 < date.month then .error .month
  else if date.day == 0 || daysInMonth date.year date.month < date.day then .error .day
  else if 23 < clock.part 0 then .error .hour
  else if 59 < clock.part 1 then .error .minute
  else if 59 < clock.part 2 then .error .second
  else .ok ⟨date.number * dayLength + clock.microseconds, offset⟩

/-- Reads a moment. -/
def Moment.read (source : String) : Except MomentError Moment :=
  let text := source.toList
  if text.length < 7 then .error .form
  else
    let size := dateLength text
    match readDate? (text.take size) with
    | none => .error .form
    | some date =>
      match text.drop size with
      | [] => Moment.ofParts date ⟨[], false⟩ none
      | [_] => .error .form
      | _ :: rest =>
        match readTime? rest with
        | none => .error .form
        | some (clock, offset) => Moment.ofParts date clock offset

end FeatureRunner.Calendar
