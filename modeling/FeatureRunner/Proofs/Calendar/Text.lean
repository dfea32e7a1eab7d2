import FeatureRunner.Calendar.Reader
import FeatureRunner.Proofs.Calendar.Date
import Mathlib.Algebra.Group.Nat.Defs
import Mathlib.Data.List.TakeWhile

/-!
Texts of moments. What is written of a moment is read back as that moment, as long as its year has
four digits.

Main statement: `Moment.read_text`.
-/

namespace FeatureRunner.Calendar

/-! ## Numbers in decimal digits -/

/-- Digits of some number, as many as are asked for. -/
structure Spelled (count value : Nat) (digits : List Char) : Prop where
  length : digits.length = count
  all : ∀ c ∈ digits, c.isDigit = true
  value : Nat.ofDigitChars 10 digits 0 = value

theorem readDigits?_append {digits : List Char} (all : ∀ c ∈ digits, c.isDigit = true) (value : Nat)
    (rest : List Char) : readDigits? digits.length value (digits ++ rest) =
      some (Nat.ofDigitChars 10 digits value, rest) := by
  induction digits generalizing value with
  | nil => rfl
  | cons c digits ih =>
    obtain ⟨here, all⟩ := List.forall_mem_cons.1 all
    rw [List.length_cons, List.cons_append, readDigits?, asciiDigit?, if_pos here, Option.bind_some,
      ih all, Nat.ofDigitChars_cons, Nat.mul_comm]

theorem Spelled.read {count value : Nat} {digits : List Char} (spelled : Spelled count value digits)
    (rest : List Char) : readDigits? count 0 (digits ++ rest) = some (value, rest) := by
  rw [← spelled.length, readDigits?_append spelled.all, spelled.value]

theorem spelled_padded {count value : Nat} (fits : value < 10 ^ count) (some : 0 < count) :
    Spelled count value (Moment.padded count value).toList := by
  have length := (Nat.length_toDigits_le_iff (n := value) (by decide : 1 < 10) some).2 fits
  simp only [Moment.padded, String.toList_ofList]
  constructor
  · rw [List.length_append, List.length_replicate]
    omega
  · intro c member
    rcases List.mem_append.1 member with zero | digit
    · rw [List.eq_of_mem_replicate zero]
      rfl
    · exact Nat.isDigit_of_mem_toDigits (by decide) (by decide) digit
  · rw [Nat.ofDigitChars_append, Nat.ofDigitChars_replicate_zero, Nat.mul_zero,
      Nat.ofDigitChars_ten_toDigits]

theorem Spelled.two {value : Nat} {digits : List Char} (spelled : Spelled 2 value digits) :
    ∃ first second, digits = [first, second] := by
  match digits, spelled.length with
  | [first, second], _ => exact ⟨first, second, rfl⟩

theorem Spelled.four {value : Nat} {digits : List Char} (spelled : Spelled 4 value digits) :
    ∃ first second third fourth, digits = [first, second, third, fourth] := by
  match digits, spelled.length with
  | [first, second, third, fourth], _ => exact ⟨first, second, third, fourth, rfl⟩

theorem ne_of_isDigit {c other : Char} (digit : c.isDigit = true) (apart : other.isDigit = false) :
    c ≠ other := by
  rintro rfl
  simp [digit] at apart

theorem beginsOffset_of_isDigit {c : Char} (digit : c.isDigit = true) : beginsOffset c = false := by
  simp [beginsOffset, ne_of_isDigit digit]

/-! ## Dates -/

section Dates

variable {year month day : Nat} {years months days : List Char}

theorem readDate?_spelled (spelled : Spelled 4 year years) (spelled' : Spelled 2 month months)
    (spelled'' : Spelled 2 day days) :
    readDate? (years ++ '-' :: (months ++ '-' :: days)) = some ⟨year, month, day⟩ := by
  have read := spelled''.read []
  obtain ⟨first, second, rfl⟩ := spelled'.two
  have week : first ≠ 'W' := ne_of_isDigit (spelled'.all first (by simp)) rfl
  have read' := spelled'.read ('-' :: days)
  rw [List.append_nil] at read
  simp only [List.cons_append, List.nil_append] at read'
  simp [readDate?, spelled.read, week, read, read']

theorem dateLength_spelled (spelled : Spelled 4 year years) (spelled' : Spelled 2 month months)
    (spelled'' : Spelled 2 day days) (rest : List Char) :
    dateLength (years ++ '-' :: (months ++ '-' :: (days ++ 'T' :: rest))) = 10 := by
  obtain ⟨_, _, _, _, rfl⟩ := spelled.four
  obtain ⟨first, second, rfl⟩ := spelled'.two
  obtain ⟨_, _, rfl⟩ := spelled''.two
  have week : first ≠ 'W' := ne_of_isDigit (spelled'.all first (by simp)) rfl
  simp [dateLength, week]

end Dates

/-! ## Times of day -/

section Clocks

variable {hour minute second fraction : Nat} {hours minutes seconds micros : List Char}

theorem readClock?_whole (spelled : Spelled 2 hour hours) (spelled' : Spelled 2 minute minutes)
    (spelled'' : Spelled 2 second seconds) :
    readClock? (hours ++ ':' :: (minutes ++ ':' :: seconds)) [] =
      some ⟨[hour, minute, second], false⟩ := by
  obtain ⟨_, _, rfl⟩ := spelled'.two
  have read := spelled''.read []
  have read' := spelled'.read (':' :: seconds)
  obtain ⟨_, _, rfl⟩ := spelled''.two
  simp only [List.cons_append, List.nil_append] at read read'
  simp [readClock?, readClockFrom?, spelled.read, read, read']

theorem readClock?_fraction (spelled : Spelled 2 hour hours) (spelled' : Spelled 2 minute minutes)
    (spelled'' : Spelled 2 second seconds) (micro : Spelled 6 fraction micros) :
    readClock? (hours ++ ':' :: (minutes ++ ':' :: (seconds ++ '.' :: micros))) [] =
      some ⟨[hour, minute, second, fraction], false⟩ := by
  obtain ⟨_, _, rfl⟩ := spelled'.two
  have read := spelled''.read ('.' :: micros)
  have read' := spelled'.read (':' :: (seconds ++ '.' :: micros))
  have read'' := micro.read []
  have some : micros ≠ [] := fun none => by simpa [none] using micro.length
  obtain ⟨_, _, rfl⟩ := spelled''.two
  rw [List.append_nil] at read''
  simp only [List.cons_append, List.nil_append] at read read'
  simp [readClock?, readClockFrom?, readFraction?, spelled.read, read, read', read'', micro.length, some]

end Clocks

/-! ## Moments -/

namespace Moment

/-- The year of a moment has at most four digits. -/
def Dated (moment : Moment) : Prop :=
  moment.microseconds < calendarEnd * dayLength

instance : DecidablePred Dated := fun _ => inferInstanceAs (Decidable (_ < _))

theorem fields_lt (moment : Moment) :
    moment.hour < 24 ∧ moment.minute < 60 ∧ moment.second < 60 ∧ moment.fraction < 1000000 := by
  have within : moment.timeOfDay < dayLength := Nat.mod_lt _ (by decide)
  unfold dayLength at within
  simp only [hour, minute, second, fraction]
  omega

theorem fields_sum (moment : Moment) :
    (moment.hour * 3600 + moment.minute * 60 + moment.second) * 1000000 + moment.fraction =
      moment.timeOfDay := by
  simp only [hour, minute, second, fraction]
  omega

/-- The text of the time of day. -/
def timeText (moment : Moment) : List Char :=
  (padded 2 moment.hour).toList ++ ':' :: ((padded 2 moment.minute).toList ++ ':' ::
    ((padded 2 moment.second).toList ++
      if moment.fraction = 0 then [] else '.' :: (padded 6 moment.fraction).toList))

theorem text_toList (moment : Moment) : moment.text.toList =
    (padded 4 moment.date.year).toList ++ '-' :: ((padded 2 moment.date.month).toList ++ '-' ::
      ((padded 2 moment.date.day).toList ++ 'T' :: moment.timeText)) := by
  unfold text timeText
  by_cases zero : moment.fraction = 0 <;> simp [zero, String.toList_append]

/-- The fields of the time of day, as they are read. -/
def reading (moment : Moment) : ClockReading :=
  ⟨[moment.hour, moment.minute, moment.second] ++
    if moment.fraction = 0 then [] else [moment.fraction], false⟩

theorem reading_microseconds (moment : Moment) : moment.reading.microseconds = moment.timeOfDay := by
  rw [← moment.fields_sum]
  by_cases zero : moment.fraction = 0 <;>
    simp [reading, ClockReading.microseconds, ClockReading.part, zero]

theorem readTime?_timeText (moment : Moment) :
    readTime? moment.timeText = some (moment.reading, none) := by
  obtain ⟨hour, minute, second, fraction⟩ := moment.fields_lt
  have hours := spelled_padded (show moment.hour < 10 ^ 2 by omega) (by decide)
  have minutes := spelled_padded (show moment.minute < 10 ^ 2 by omega) (by decide)
  have seconds := spelled_padded (show moment.second < 10 ^ 2 by omega) (by decide)
  have micros := spelled_padded (show moment.fraction < 10 ^ 6 by omega) (by decide)
  have clock : readClock? moment.timeText [] = some moment.reading := by
    unfold timeText reading
    split
    · rw [List.append_nil]
      exact readClock?_whole hours minutes seconds
    · exact readClock?_fraction hours minutes seconds micros
  -- Nothing in the text of the time of day begins an offset.
  have plain : ∀ c ∈ moment.timeText, beginsOffset c = false := by
    have digits {count value : Nat} {text : List Char} (spelled : Spelled count value text) :
        ∀ c ∈ text, beginsOffset c = false :=
      fun c member => beginsOffset_of_isDigit (spelled.all c member)
    simp only [timeText, List.forall_mem_append, List.forall_mem_cons]
    refine ⟨digits hours, rfl, digits minutes, rfl, digits seconds, ?_⟩
    split
    · exact fun _ none => absurd none List.not_mem_nil
    · exact List.forall_mem_cons.2 ⟨rfl, digits micros⟩
  have whole : moment.timeText.takeWhile (!beginsOffset ·) = moment.timeText :=
    List.takeWhile_eq_self_iff.2 fun c member => by simp [plain c member]
  have rest : moment.timeText.dropWhile (!beginsOffset ·) = [] :=
    List.dropWhile_eq_nil_iff.2 fun c member => by simp [plain c member]
  rw [readTime?, whole, rest, clock]
  rfl

section Dated

variable {moment : Moment}

theorem Dated.date (dated : moment.Dated) : moment.date.Valid ∧ moment.date.year ≤ 9999 ∧
    moment.date.number = moment.microseconds / dayLength := by
  have number : moment.microseconds / dayLength < calendarEnd := Nat.div_lt_of_lt_mul (by
    rw [Nat.mul_comm]
    exact dated)
  obtain ⟨valid, same⟩ := Date.valid_ofNumber (moment.microseconds / dayLength)
  exact ⟨valid, Date.year_ofNumber number, same⟩

theorem Dated.spelled (dated : moment.Dated) :
    Spelled 4 moment.date.year (padded 4 moment.date.year).toList ∧
    Spelled 2 moment.date.month (padded 2 moment.date.month).toList ∧
    Spelled 2 moment.date.day (padded 2 moment.date.day).toList := by
  obtain ⟨⟨_, month, day⟩, year, _⟩ := dated.date
  have short : daysInMonth moment.date.year moment.date.month ≤ 31 := by
    unfold daysInMonth
    split
    · split <;> decide
    · split <;> decide
  exact ⟨spelled_padded (by omega) (by decide), spelled_padded (by omega) (by decide),
    spelled_padded (by omega) (by decide)⟩

/-- A moment is read back from its text. -/
theorem read_text (dated : moment.Dated) : Moment.read moment.text = .ok ⟨moment.microseconds, none⟩ := by
  obtain ⟨years, months, days⟩ := dated.spelled
  obtain ⟨⟨year, month, day⟩, last, number⟩ := dated.date
  obtain ⟨hour, minute, second, _⟩ := moment.fields_lt
  have size := dateLength_spelled years months days moment.timeText
  have date := readDate?_spelled years months days
  have time := moment.readTime?_timeText
  -- The text falls apart behind the date.
  generalize front : (padded 4 moment.date.year).toList ++ '-' ::
    ((padded 2 moment.date.month).toList ++ '-' :: (padded 2 moment.date.day).toList) = dates at date
  have length : dates.length = 10 := by
    simp [← front, years.length, months.length, days.length]
  have split : moment.text.toList = dates ++ 'T' :: moment.timeText := by
    rw [text_toList, ← front]
    simp
  obtain ⟨first, others, clock⟩ : ∃ first others, moment.timeText = first :: others :=
    List.exists_cons_of_ne_nil (by simp [timeText])
  have sum : moment.date.number * dayLength + moment.reading.microseconds = moment.microseconds := by
    rw [number, reading_microseconds]
    exact Nat.div_add_mod' _ _
  have parts : ofParts moment.date moment.reading none = .ok ⟨moment.microseconds, none⟩ := by
    have hours : moment.reading.part 0 = moment.hour := rfl
    have minutes : moment.reading.part 1 = moment.minute := rfl
    have seconds : moment.reading.part 2 = moment.second := rfl
    rw [ofParts, if_neg (by simp), if_neg (by simp; omega), if_neg (by simp; omega),
      if_neg (by simp; omega), if_neg (by omega), if_neg (by omega), if_neg (by omega), sum]
  rw [← text_toList, split] at size
  have long : ¬(dates ++ 'T' :: moment.timeText).length < 7 := by
    rw [List.length_append, length]
    omega
  simp only [Moment.read, split, if_neg long, size, List.take_left' length, List.drop_left' length,
    date]
  rw [clock] at time ⊢
  simp only [time, parts]

end Dated

end Moment

end FeatureRunner.Calendar
