import FeatureRunner.Calendar.Reader
import FeatureRunner.Value

/-!
The seconds between two moments that are given as texts.
-/

namespace FeatureRunner
open FeatureRunner.Number FeatureRunner.Calendar

/-- The moment that a value is the text of. -/
def Value.moment : Value → Except Fault Moment
  | .text source =>
    match Moment.read source with
    | .ok moment => .ok moment
    | .error error => .error (.moment source error)
  | _ => .error (.misuse "fromisoformat: argument must be str")

/-- Seconds as a fraction of microseconds. -/
def secondsOf (microseconds : Int) : Binary64 :=
  .ofQuotient (microseconds < 0) microseconds.natAbs 1000000

/-- The seconds from a start to an end; zero unless both count as true. -/
def duration (start finish : Value) : Except Fault Value :=
  if !start.truthy || !finish.truthy then .ok (.int 0)
  else do
    let last ← finish.moment
    let first ← start.moment
    match first.until? last with
    | some microseconds => return .float (secondsOf microseconds)
    | none => .error (.misuse "can't subtract offset-naive and offset-aware datetimes")

/-- The seconds from the start to the end that a mapping has. -/
def entriesDuration (entries : List (Value × Value)) : Except Fault Value :=
  duration ((Value.field? entries "start_time").getD .null)
    ((Value.field? entries "end_time").getD .null)

end FeatureRunner
