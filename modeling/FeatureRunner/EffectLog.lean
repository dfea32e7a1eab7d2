import FeatureRunner.Value

/-!
The log of effects, in sections. What happens is noted in the present section; only what was begun
in an earlier section can still be noted there, behind everything that the section holds by then.
-/

namespace FeatureRunner

structure EffectLog where
  /-- The closed sections, in order. -/
  closed : List (List Value)
  present : List Value

namespace EffectLog

def empty : EffectLog := ⟨[], []⟩

/-- The number of the present section. -/
def presentNumber (log : EffectLog) : Nat :=
  log.closed.length

/-- Notes a value at the end of a section. -/
def note (log : EffectLog) (number : Nat) (value : Value) : EffectLog :=
  if number < log.presentNumber then
    { log with closed := log.closed.modify number (· ++ [value]) }
  else { log with present := log.present ++ [value] }

/-- Closes the present section and begins the next. -/
def closeSection (log : EffectLog) : EffectLog :=
  ⟨log.closed ++ [log.present], []⟩

/-- All values, section by section. -/
def entries (log : EffectLog) : List Value :=
  log.closed.flatten ++ log.present

/-- Closing a section loses nothing and adds nothing. -/
theorem entries_closeSection (log : EffectLog) : log.closeSection.entries = log.entries := by
  simp [closeSection, entries]

/-- What is noted in the present section comes last. -/
theorem entries_note_present (log : EffectLog) (value : Value) :
    (log.note log.presentNumber value).entries = log.entries ++ [value] := by
  simp [note, entries]

end EffectLog

end FeatureRunner
