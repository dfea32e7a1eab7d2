import FeatureRunner.Report.Chunk
import FeatureRunner.Report.Duration

/-!
The report as JUnit XML: one suite per feature, one case per scenario, and totals that come from
the results for the whole and are counted for each suite.
-/

namespace FeatureRunner.Junit

/-- A scenario as a test case: its entries, and its duration. -/
structure Case where
  entries : List (Value × Value)
  duration : Value

/-- A feature as a suite: its entries, its cases, how many of them failed, and its duration. -/
structure CaseGroup where
  entries : List (Value × Value)
  cases : List Case
  failures : Nat
  duration : Value

def Case.member (case : Case) (name : String) : Slot :=
  Value.field? case.entries name

/-- A scenario with its duration. -/
def Case.ofScenario : Value → Except Fault Case
  | .dict entries => do return ⟨entries, ← entriesDuration entries⟩
  | value => .error (.misuse ("'" ++ value.typeName ++ "' object is not a mapping"))

def CaseGroup.ofFeature (feature : Value) : Except Fault CaseGroup := do
  let scenarios ← (← feature.getOr "scenarios" (.list [])).items?
  let cases ← scenarios.mapM Case.ofScenario
  let entries ← feature.entries?
  let failures := (cases.filter fun case => (case.member "status").isText "failed").length
  return ⟨entries, cases, failures, ← entriesDuration entries⟩

/-- A text with every space replaced by an underscore. -/
def joinWords (text : String) : String :=
  text.map fun c => if c == ' ' then '_' else c

/-- The element that tells that a case did not pass, if its status says so. -/
def statusChunks (case : Case) : List Chunk :=
  if (case.member "status").isText "failed" then
    [.markup "\n            <failure message=\"",
     .content (Slot.text (some ((case.member "error").getD (.text "Test failed")))),
     .markup "\"></failure>"]
  else if (case.member "status").isText "skipped" then [.markup "\n            <skipped/>"]
  else []

def caseChunks (feature : Slot) (case : Case) : List Chunk :=
  [.markup "\n        <testcase classname=\"", .content (joinWords feature.text),
   .markup "\" name=\"", .content (case.member "name").text,
   .markup ("\" time=\"" ++ case.duration.display ++ "\">")] ++
  statusChunks case ++ [.markup "\n        </testcase>"]

def groupChunks (group : CaseGroup) : List Chunk :=
  let feature := Value.field? group.entries "feature"
  [.markup "\n    <testsuite name=\"", .content (Slot.text feature),
   .markup ("\" tests=\"" ++ toString group.cases.length ++ "\" failures=\"" ++
     toString group.failures ++ "\" time=\"" ++ group.duration.display ++ "\">")] ++
  group.cases.flatMap (caseChunks feature) ++ [.markup "\n    </testsuite>"]

/-- The report for some results. The totals stand as they are in the summary. -/
def chunks (results : Value) : Except Fault (List Chunk) := do
  let features ← (← results.getOr "features" (.list [])).items?
  let groups ← features.mapM CaseGroup.ofFeature
  let duration ← entriesDuration (← results.entries?)
  let summary ← results.getOr "summary" (.dict [])
  return [.markup ("<?xml version=\"1.0\" encoding=\"UTF-8\"?>\n" ++
      "<testsuites name=\"BDD Core Test Results\" time=\"" ++ duration.display ++
      "\" tests=\"" ++ (summary.member "total").text ++
      "\" failures=\"" ++ (summary.member "failed").text ++
      "\" skipped=\"" ++ (summary.member "skipped").text ++ "\">")] ++
    groups.flatMap groupChunks ++ [.markup "\n</testsuites>"]

end FeatureRunner.Junit
