import FeatureRunner.Table

/-!
Features as they are written: a feature has scenarios of its own and then rules with scenarios, and
each of these parts may have a background whose steps come before those of its scenarios.
-/

namespace FeatureRunner

/-- A step with the table and the text that stand under it. -/
structure FeatureStep where
  keyword : String
  text : String
  table : Option Table
  docString : Option String
  deriving DecidableEq, Repr

/-- A scenario or an outline of scenarios. -/
structure Scenario where
  keyword : String
  name : String
  tags : List String
  isOutline : Bool
  steps : List FeatureStep
  deriving DecidableEq, Repr

/-- The background and the scenarios of a feature or of one of its rules. -/
structure Section where
  background : Option (List FeatureStep)
  scenarios : List Scenario
  deriving DecidableEq, Repr

structure Feature where
  name : String
  tags : List String
  description : List String
  body : Section
  rules : List Section
  deriving DecidableEq, Repr

namespace Section

def empty : Section := ⟨none, []⟩

/-- The steps of the background; none if there is no background. -/
def backgroundSteps (part : Section) : List FeatureStep :=
  part.background.getD []

/-- Adds a step to the last scenario. -/
def addScenarioStep (step : FeatureStep) (part : Section) : Section :=
  { part with scenarios := part.scenarios.modify (part.scenarios.length - 1) fun scenario =>
      { scenario with steps := scenario.steps ++ [step] } }

def addBackgroundStep (step : FeatureStep) (part : Section) : Section :=
  { part with background := some (part.backgroundSteps ++ [step]) }

/-- Changes the last step of the last scenario. -/
def updateScenarioStep (change : FeatureStep → FeatureStep) (part : Section) : Section :=
  { part with scenarios := part.scenarios.modify (part.scenarios.length - 1) fun scenario =>
      { scenario with steps := scenario.steps.modify (scenario.steps.length - 1) change } }

/-- Changes the last step of the background. -/
def updateBackgroundStep (change : FeatureStep → FeatureStep) (part : Section) : Section :=
  { part with background := part.background.map fun steps =>
      steps.modify (steps.length - 1) change }

end Section

namespace Feature

/-- The part that further lines belong to: the last rule, or the feature itself before any rule. -/
def lastSection (feature : Feature) : Section :=
  feature.rules.getLastD feature.body

def updateLastSection (change : Section → Section) (feature : Feature) : Feature :=
  if feature.rules.isEmpty then { feature with body := change feature.body }
  else { feature with rules := feature.rules.modify (feature.rules.length - 1) change }

end Feature

end FeatureRunner
