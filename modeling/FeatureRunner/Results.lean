import FeatureRunner.Calendar.Moment
import FeatureRunner.Process
import FeatureRunner.Value.Display

/-!
The results of runs, as they are collected from the events of suites and tests, with a summary by
status.
-/

namespace FeatureRunner
open FeatureRunner.Calendar

/-- How a scenario stands. -/
inductive ScenarioStatus
  | running
  | passed
  | failed
  | skipped
  deriving DecidableEq, Repr

def ScenarioStatus.name : ScenarioStatus → String
  | running => "running"
  | passed => "passed"
  | failed => "failed"
  | skipped => "skipped"

/-- The result of one test. Times are the texts of moments. -/
structure ScenarioResult where
  name : String
  tags : List String
  steps : List StepCard
  status : ScenarioStatus
  startTime : String
  error : Option String
  endTime : Option String

/-- The results of one suite. -/
structure FeatureResult where
  feature : String
  tags : List String
  scenarios : List ScenarioResult
  failed : Bool
  startTime : String
  endTime : Option String

/-- The results so far, and whether the last feature and its last scenario are still open. -/
structure Results where
  features : List FeatureResult
  /-- The feature that tests are added to, counted from the first. -/
  openFeature : Option Nat
  /-- The scenario that events are about, by its feature and its place in it. -/
  openScenario : Option (Nat × Nat)
  startTime : Option String
  endTime : Option String

namespace Results

def initial : Results := ⟨[], none, none, none, none⟩

/-- The title and tags of a value, if it has them. -/
def titled? : Value → Option (String × List String)
  | .test card => some (card.title, card.tags)
  | .suite card => some (card.title, card.tags)
  | _ => none

/-- Keeps the earliest start. -/
def started (now : String) (results : Results) : Results :=
  { results with startTime := some (results.startTime.getD now) }

/-- Adds a feature and opens it. -/
def beginFeature (now title : String) (tags : List String) (results : Results) : Results :=
  { results.started now with
    features := results.features ++ [⟨title, tags, [], false, now, none⟩]
    openFeature := some results.features.length }

/-- Changes the feature with a number. -/
def updateFeature (number : Nat) (change : FeatureResult → FeatureResult) (results : Results) :
    Results :=
  { results with features := results.features.modify number change }

/-- Changes the open scenario, if one is open. -/
def updateScenario (change : ScenarioResult → ScenarioResult) (results : Results) : Results :=
  match results.openScenario with
  | some (feature, place) =>
    results.updateFeature feature fun result =>
      { result with scenarios := result.scenarios.modify place change }
  | none => results

def endFeature (now : String) (results : Results) : Results :=
  let results := match results.openFeature with
    | some number => results.updateFeature number ({ · with endTime := some now })
    | none => results
  { results with endTime := some now, openFeature := none }

/-- Opens an untitled feature for a test that runs outside every suite. -/
def ensureFeature (now : String) (results : Results) : Results :=
  if results.openFeature.isSome then results else results.beginFeature now "" []

/-- Adds a scenario to the open feature and opens it. -/
def beginScenario (now : String) (card : TestCard) (results : Results) : Results :=
  match results.openFeature with
  | some number =>
    let place := ((results.features[number]?).map (·.scenarios.length)).getD 0
    { results.updateFeature number fun feature =>
        { feature with scenarios := feature.scenarios ++
            [⟨card.title, card.tags, card.steps, .running, now, none, none⟩] } with
      openScenario := some (number, place) }
  | none => results

/-- Sets the status of the open scenario; a failure also fails the open feature. -/
def setStatus (status : ScenarioStatus) (error : Option String) (results : Results) : Results :=
  if results.openScenario.isNone then results
  else
    let results := results.updateScenario fun scenario =>
      { scenario with status := status, error := error.or scenario.error }
    match status, results.openFeature with
    | .failed, some number => results.updateFeature number ({ · with failed := true })
    | _, _ => results

def endScenario (now : String) (results : Results) : Results :=
  { results.updateScenario ({ · with endTime := some now }) with
    endTime := some now, openScenario := none }

/-- The text of the error that a failure is reported with; null stands for no error. -/
def errorText? : Value → Option String
  | .null => none
  | error => some error.display

/-- The fault of a call with the wrong number of arguments. -/
def wrongCount (args : List Value) : Except Fault Unit :=
  .error (.misuse ("unexpected number of arguments: " ++ toString args.length))

def lacks (value : Value) (member : String) : Except Fault Unit :=
  .error (.missingMember value.typeName member)

/-- Takes in an event. What was changed before a fault stays changed. -/
def collect (now : String) (event : CollectorEvent) (args : List Value) (results : Results) :
    Except Fault Unit × Results :=
  match event, args with
  | .suiteBefore, [suite] =>
    match titled? suite with
    | some (title, tags) => (.ok (), results.beginFeature now title tags)
    | none => (lacks suite "title", results.started now)
  | .suiteAfter, [_] => (.ok (), results.endFeature now)
  | .testStarted, [test] =>
    let results := (results.ensureFeature now).started now
    match test with
    | .test card => (.ok (), results.beginScenario now card)
    | other => (lacks other (if (titled? other).isSome then "steps" else "title"), results)
  | .testPassed, [_] => (.ok (), results.setStatus .passed none)
  | .testFailed, [_] => (.ok (), results.setStatus .failed none)
  | .testFailed, [_, error] => (.ok (), results.setStatus .failed (errorText? error))
  | .testSkipped, [_] => (.ok (), results.setStatus .skipped none)
  | .testFinished, [_] => (.ok (), results.endScenario now)
  | _, args => (wrongCount args, results)

/-- How many scenarios have a status. -/
def count (status : ScenarioStatus) (results : Results) : Nat :=
  ((results.features.flatMap (·.scenarios)).filter (·.status == status)).length

def total (results : Results) : Nat :=
  (results.features.flatMap (·.scenarios)).length

def optional (key : String) : Option String → List (String × Value)
  | some text => [(key, .text text)]
  | none => []

def stepValue (step : StepCard) : Value :=
  .record [("keyword", .text step.keyword), ("name", .text step.text)]

def scenarioValue (scenario : ScenarioResult) : Value :=
  .record ([("name", .text scenario.name), ("tags", .ofTexts scenario.tags),
    ("steps", .list (scenario.steps.map stepValue)), ("status", .text scenario.status.name),
    ("start_time", .text scenario.startTime)] ++
    optional "error" scenario.error ++ optional "end_time" scenario.endTime)

def featureValue (feature : FeatureResult) : Value :=
  .record ([("feature", .text feature.feature), ("tags", .ofTexts feature.tags),
    ("scenarios", .list (feature.scenarios.map scenarioValue)),
    ("status", .text (if feature.failed then "failed" else "passed")),
    ("start_time", .text feature.startTime)] ++ optional "end_time" feature.endTime)

def summaryValue (results : Results) : Value :=
  .record [("total", .int results.total), ("passed", .int (results.count .passed)),
    ("failed", .int (results.count .failed)), ("skipped", .int (results.count .skipped))]

/-- The results as a value; times that are not known yet are the present. -/
def value (now : String) (results : Results) : Value :=
  .record [("features", .list (results.features.map featureValue)),
    ("summary", results.summaryValue),
    ("start_time", .text (results.startTime.getD now)),
    ("end_time", .text (results.endTime.getD now))]

end Results

end FeatureRunner
