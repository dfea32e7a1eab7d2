import FeatureRunner.Feature.Reader
import FeatureRunner.Suite

/-!
Compiling a feature: every step is resolved before anything runs. The tests are the scenarios of
the feature and then those of its rules, each with the steps of the backgrounds before its own; an
outline becomes a pending test.
-/

namespace FeatureRunner

/-- The match of a step, with its table and its text as further parameters. -/
def ResolvedStep.resolve (registry : Registry) (step : FeatureStep) : Except Fault ResolvedStep := do
  let found ← registry.resolve step.text
  let found := match step.table with
    | some table => found.withArgument (.table table)
    | none => found
  let found := match step.docString with
    | some text => found.withArgument (.text text)
    | none => found
  return ⟨step.keyword, step.text, found⟩

/-- The test of a scenario, which is titled like its feature if it has no name. -/
def Test.ofScenario (registry : Registry) (feature : Feature) (background : List FeatureStep)
    (scenario : Scenario) : Except Fault Test := do
  let title := if scenario.name.isEmpty then feature.name else scenario.name
  if scenario.isOutline then return ⟨title, [], scenario.tags, true⟩
  else
    let steps ← (background ++ scenario.steps).mapM (ResolvedStep.resolve registry)
    return ⟨title, steps, scenario.tags, false⟩

namespace Suite

/-- The tests of a feature's own scenarios, and then those of its rules. -/
def testsOf (registry : Registry) (feature : Feature) : Except Fault (List Test) := do
  let background := feature.body.backgroundSteps
  let own ← feature.body.scenarios.mapM (Test.ofScenario registry feature background)
  let ruled ← feature.rules.mapM fun rule =>
    rule.scenarios.mapM (Test.ofScenario registry feature (background ++ rule.backgroundSteps))
  return own ++ ruled.flatten

def ofFeature (registry : Registry) (feature : Feature) : Except Fault Suite := do
  return ⟨feature.name, "\n".intercalate feature.description, feature.tags,
    ← testsOf registry feature⟩

/-- How a text without a feature is called in messages: by its file, if that has a name. -/
def sourceName : Option String → String
  | some name => if name.isEmpty then "feature text" else name
  | none => "feature text"

/-- Compiles the feature that a text holds. -/
def compile (registry : Registry) (text : String) (file : Option String) : Except Fault Suite := do
  match ← Feature.read text file with
  | some feature => ofFeature registry feature
  | none => .error (.noFeature (sourceName file))

end Suite

end FeatureRunner
