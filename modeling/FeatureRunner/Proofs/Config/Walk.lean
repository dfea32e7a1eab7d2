import FeatureRunner.Config
import FeatureRunner.Proofs.Config.Entries

/-!
Where the parts of a dotted key lead: to a value, to what is no mapping before they are all used, or
to a mapping that lacks a part.
-/

namespace FeatureRunner.Config
open FeatureRunner.Value

/-- How the parts of a key lead into a value. -/
inductive Trail
  /-- They lead to a value. -/
  | found (value : Value)
  /-- What is no mapping stands before the last part. -/
  | blocked
  /-- A mapping lacks a part. -/
  | absent

/-- Follows the parts of a key into a value. -/
def trail : List String → Value → Trail
  | [], value => .found value
  | part :: rest, .dict entries =>
    match field? entries part with
    | some inner => trail rest inner
    | none => .absent
  | _ :: _, _ => .blocked

theorem walk?_eq_some {parts : List String} {value found : Value} :
    walk? parts value = some found ↔ trail parts value = .found found := by
  fun_induction trail parts value with
  | case1 value => simp [walk?]
  | case2 part rest entries inner known ih => simpa [walk?, known] using ih
  | case3 part rest entries unknown => simp [walk?, unknown]
  | case4 part rest value single => simp [walk?]

theorem walk?_append (front back : List String) (value : Value) :
    walk? (front ++ back) value = (walk? front value).bind (walk? back) := by
  induction front generalizing value with
  | nil => rfl
  | cons part rest ih =>
    cases value with
    | dict entries =>
      rw [List.cons_append, walk?, walk?]
      cases field? entries part with
      | some inner => exact ih inner
      | none => rfl
    | _ => rfl

theorem walk?_of_single {value : Value} (single : ∀ entries, value ≠ .dict entries)
    {parts : List String} (some : parts ≠ []) : walk? parts value = none := by
  cases parts with
  | nil => exact absurd rfl some
  | cons part rest => cases value with
    | dict entries => exact absurd rfl (single entries)
    | _ => rfl

theorem trail_eq_blocked {parts : List String} {value : Value} :
    trail parts value = .blocked ↔ ∃ front back single, parts = front ++ back ∧ back ≠ [] ∧
      walk? front value = some single ∧ ∀ entries, single ≠ .dict entries := by
  constructor
  · intro blocked
    fun_induction trail parts value with
    | case1 value => cases blocked
    | case2 part rest entries inner known ih =>
      obtain ⟨front, back, single, rfl, some, led, leaf⟩ := ih blocked
      exact ⟨part :: front, back, single, rfl, some, by simpa [walk?, known] using led, leaf⟩
    | case3 part rest entries unknown => cases blocked
    | case4 part rest value single =>
      exact ⟨[], part :: rest, value, rfl, List.cons_ne_nil _ _, rfl, single⟩
  · rintro ⟨front, back, single, rfl, some, led, leaf⟩
    induction front generalizing value with
    | nil =>
      obtain rfl := Option.some.inj led
      cases back with
      | nil => exact absurd rfl some
      | cons part rest => cases value with
        | dict entries => exact absurd rfl (leaf entries)
        | _ => rfl
    | cons part rest ih => cases value with
      | dict entries =>
        rw [walk?] at led
        rw [List.cons_append, trail]
        cases known : field? entries part with
        | some inner =>
          rw [known] at led
          exact ih led
        | none =>
          rw [known] at led
          cases led
      | _ => cases led

end FeatureRunner.Config
