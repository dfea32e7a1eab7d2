import FeatureRunner.Calendar.Date
import Mathlib.Tactic.Common

/-!
Days and their numbers. The day with a number is one that the calendar has, and its number is that
number again.

Main statement: `Date.valid_ofNumber`.
-/

namespace FeatureRunner.Calendar

/-- A day that the calendar has. -/
structure Date.Valid (date : Date) : Prop where
  year : 1 ≤ date.year
  month : 1 ≤ date.month ∧ date.month ≤ 12
  day : 1 ≤ date.day ∧ date.day ≤ daysInMonth date.year date.month

/-! ## Months -/

theorem daysBeforeMonth_succ (year : Nat) {month : Nat} (positive : 1 ≤ month) :
    daysBeforeMonth year (month + 1) = daysBeforeMonth year month + daysInMonth year month := by
  obtain ⟨before, rfl⟩ := Nat.exists_eq_add_of_le' positive
  rfl

theorem daysBeforeMonth_end (year : Nat) :
    daysBeforeMonth year 13 = if isLeap year then 366 else 365 := by
  cases leap : isLeap year <;> simp [daysBeforeMonth, daysInMonth, leap]

/-- The month of a day is found among those that are left. -/
theorem monthFrom_spec {year month left day : Nat} (positive : 1 ≤ month)
    (within : daysBeforeMonth year month + day < daysBeforeMonth year (month + left + 1)) :
    ∃ found number, monthFrom year month left day = (found, number) ∧
      month ≤ found ∧ found ≤ month + left ∧ 1 ≤ number ∧ number ≤ daysInMonth year found ∧
      daysBeforeMonth year found + (number - 1) = daysBeforeMonth year month + day := by
  have next := daysBeforeMonth_succ year positive
  induction left generalizing month day with
  | zero =>
    rw [Nat.add_zero] at within
    exact ⟨month, day + 1, rfl, by omega⟩
  | succ left ih =>
    unfold monthFrom
    split
    · exact ⟨month, day + 1, rfl, by omega⟩
    · rename_i beyond
      have positive' : 1 ≤ month + 1 := by omega
      have within' : daysBeforeMonth year (month + 1) + (day - daysInMonth year month) <
          daysBeforeMonth year (month + 1 + left + 1) := by
        rw [show month + 1 + left + 1 = month + (left + 1) + 1 by omega]
        omega
      obtain ⟨found, number, same, least, most, bounds⟩ :=
        ih positive' within' (daysBeforeMonth_succ year positive')
      exact ⟨found, number, same, by omega⟩

/-! ## Years -/

/-- How a number of days falls apart into spans of four hundred, a hundred and four years and one. -/
structure Spans (number cycles centuries quads years rest : Nat) : Prop where
  whole : number = 146097 * cycles + 36524 * centuries + 1461 * quads + 365 * years + rest
  hundreds : centuries ≤ 3
  fours : quads ≤ 24
  ones : years ≤ 3
  short : rest ≤ 365
  /-- Only the last year of four has a day more, and the last year of a hundred only in the last
  hundred of four hundred. -/
  long : rest = 365 → years = 3 ∧ (quads = 24 → centuries = 3)

theorem spans_exist (number : Nat) : ∃ cycles centuries quads years rest,
    Spans number cycles centuries quads years rest ∧
    Date.ofNumber number = ⟨cycles * 400 + centuries * 100 + quads * 4 + years + 1,
      (monthFrom (cycles * 400 + centuries * 100 + quads * 4 + years + 1) 1 11 rest).1,
      (monthFrom (cycles * 400 + centuries * 100 + quads * 4 + years + 1) 1 11 rest).2⟩ := by
  refine ⟨_, _, _, _, _, ⟨?_, ?_, ?_, ?_, ?_, ?_⟩, rfl⟩ <;> omega

section Spans

variable {number cycles centuries quads years rest : Nat}

theorem Spans.isLeap (spans : Spans number cycles centuries quads years rest) :
    isLeap (cycles * 400 + centuries * 100 + quads * 4 + years + 1) = true ↔
      years = 3 ∧ (quads = 24 → centuries = 3) := by
  obtain ⟨_, hundreds, fours, ones, _, _⟩ := spans
  simp only [Calendar.isLeap, Bool.and_eq_true, beq_iff_eq, Bool.or_eq_true, bne_iff_ne]
  omega

theorem Spans.before (spans : Spans number cycles centuries quads years rest) :
    daysBeforeYear (cycles * 400 + centuries * 100 + quads * 4 + years + 1) + rest = number := by
  obtain ⟨whole, hundreds, fours, ones, _, _⟩ := spans
  simp only [daysBeforeYear]
  omega

end Spans

/-! ## Days -/

/-- The day with a number is in the calendar and has that number. -/
theorem Date.valid_ofNumber (number : Nat) :
    (Date.ofNumber number).Valid ∧ (Date.ofNumber number).number = number := by
  obtain ⟨cycles, centuries, quads, years, rest, spans, same⟩ := spans_exist number
  rw [same]
  generalize whole : cycles * 400 + centuries * 100 + quads * 4 + years + 1 = year
  have leap := whole ▸ spans.isLeap
  have before := whole ▸ spans.before
  have within : daysBeforeMonth year 1 + rest < daysBeforeMonth year (1 + 11 + 1) := by
    have short := spans.short
    have long := spans.long
    rw [daysBeforeMonth_end]
    change 0 + rest < _
    split
    · omega
    · rename_i common
      have apart : rest ≠ 365 := fun full => common (leap.2 (long full))
      omega
  obtain ⟨month, day, found, least, most, first, last, sum⟩ := monthFrom_spec (Nat.le_refl 1) within
  rw [found]
  have positive : 1 ≤ year := by omega
  refine ⟨⟨positive, ⟨least, most⟩, ⟨first, last⟩⟩, ?_⟩
  change daysBeforeYear year + daysBeforeMonth year month + (day - 1) = number
  change daysBeforeMonth year month + (day - 1) = 0 + rest at sum
  omega

/-- The days of ten thousand years but the year 0. -/
def calendarEnd : Nat := 3652059

theorem Date.year_ofNumber {number : Nat} (within : number < calendarEnd) :
    (Date.ofNumber number).year ≤ 9999 := by
  obtain ⟨cycles, centuries, quads, years, rest, ⟨whole, _, _, _, _, _⟩, same⟩ := spans_exist number
  rw [same]
  change cycles * 400 + centuries * 100 + quads * 4 + years + 1 ≤ 9999
  unfold calendarEnd at within
  omega

end FeatureRunner.Calendar
