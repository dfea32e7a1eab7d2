import FeatureRunner.Proofs.Registry.Precedence
import FeatureRunner.Suite.Compile

/-!
What a feature is compiled to: a test for each of its scenarios and then for each of those of its
rules, with the steps of the backgrounds before their own, every step bound to its first definition.
-/

namespace FeatureRunner

section Answers

variable {α β : Type} {answer : Except Fault α}

theorem map_eq_ok {f : α → β} {b : β} : answer.map f = .ok b ↔ ∃ a, answer = .ok a ∧ f a = b := by
  cases answer <;> simp [Except.map]

theorem map_eq_error {f : α → β} {fault : Fault} :
    answer.map f = .error fault ↔ answer = .error fault := by
  cases answer <;> simp [Except.map]

theorem eq_ok_of_toOption {ε : Type} {answer : Except ε α} {a : α}
    (known : answer.toOption = some a) : answer = .ok a := by
  cases answer <;> cases known
  rfl

theorem mapM_flatten (f : α → Except Fault β) (lists : List (List α)) :
    lists.flatten.mapM f = List.flatten <$> lists.mapM (List.mapM f) := by
  induction lists with
  | nil => rfl
  | cons list lists ih => simp [ih]

end Answers

/-! ## Steps -/

/-- The table and then the text under a step: the parameters that follow those of its match. -/
def FeatureStep.arguments (step : FeatureStep) : List Value :=
  (step.table.map Value.table).toList ++ (step.docString.map Value.text).toList

/-- A step is resolved to the first definition that its text matches, with the arguments that stand
under it behind what it matched. -/
structure ResolvedStep.Performs (registry : Registry) (step : FeatureStep)
    (resolved : ResolvedStep) : Prop where
  keyword : resolved.keyword = step.keyword
  text : resolved.text = step.text
  bound : ∃ params, registry.First step.text { resolved.found with params := params } ∧
    resolved.found.params = params ++ step.arguments

namespace ResolvedStep

variable {registry : Registry} {step : FeatureStep}

theorem resolve_eq (registry : Registry) (step : FeatureStep) : resolve registry step =
    (registry.resolve step.text).map fun found =>
      ⟨step.keyword, step.text, { found with params := found.params ++ step.arguments }⟩ := by
  unfold resolve FeatureStep.arguments
  cases registry.resolve step.text with
  | error fault => rfl
  | ok found =>
    cases step.table <;> cases step.docString <;>
      simp [Bind.bind, Except.bind, Pure.pure, Except.pure, Except.map, StepMatch.withArgument]

theorem resolve_eq_ok {resolved : ResolvedStep} :
    resolve registry step = .ok resolved ↔ Performs registry step resolved := by
  rw [resolve_eq, map_eq_ok]
  constructor
  · rintro ⟨found, known, rfl⟩
    exact ⟨rfl, rfl, found.params, Registry.resolve_eq_ok.1 known, rfl⟩
  · rintro ⟨keyword, text, params, first, given⟩
    refine ⟨_, Registry.resolve_eq_ok.2 first, ?_⟩
    simp only [← keyword, ← text, ← given]

theorem resolve_eq_error {fault : Fault} :
    resolve registry step = .error fault ↔ registry.resolve step.text = .error fault := by
  rw [resolve_eq, map_eq_error]

end ResolvedStep

/-! ## Scenarios -/

/-- The steps that the test of a scenario runs: none if the scenario is an outline. -/
def Scenario.performed (scenario : Scenario) : List FeatureStep :=
  if scenario.isOutline then [] else scenario.steps

def Scenario.behind (background : List FeatureStep) (scenario : Scenario) : Scenario :=
  { scenario with steps := background ++ scenario.steps }

/-- A test has the title and the tags of a scenario, or the title of its feature if the scenario has
no name, and it runs the steps of the scenario in order. The test of an outline is pending. -/
structure Test.Follows (registry : Registry) (feature : Feature) (scenario : Scenario)
    (test : Test) : Prop where
  title : test.title = if scenario.name = "" then feature.name else scenario.name
  tags : test.tags = scenario.tags
  pending : test.pending = scenario.isOutline
  steps : List.Forall₂ (ResolvedStep.Performs registry) scenario.performed test.steps

namespace Test

variable {registry : Registry} {feature : Feature} {scenario : Scenario}

theorem ofScenario_behind (registry : Registry) (feature : Feature)
    (background : List FeatureStep) (scenario : Scenario) :
    ofScenario registry feature [] (scenario.behind background) =
      ofScenario registry feature background scenario := rfl

theorem ofScenario_eq (registry : Registry) (feature : Feature) (scenario : Scenario) :
    ofScenario registry feature [] scenario =
      (scenario.performed.mapM (ResolvedStep.resolve registry)).map fun steps =>
        ⟨if scenario.name = "" then feature.name else scenario.name, steps, scenario.tags,
          scenario.isOutline⟩ := by
  unfold ofScenario Scenario.performed
  simp only [String.isEmpty_iff, List.nil_append]
  cases scenario.isOutline with
  | true => rfl
  | false =>
    simp only [Bool.false_eq_true, if_false]
    cases scenario.steps.mapM (ResolvedStep.resolve registry) <;> rfl

theorem ofScenario_eq_ok {test : Test} :
    ofScenario registry feature [] scenario = .ok test ↔ Follows registry feature scenario test := by
  simp only [ofScenario_eq, map_eq_ok, mapM_ok_iff, ResolvedStep.resolve_eq_ok]
  constructor
  · rintro ⟨steps, performs, rfl⟩
    exact ⟨rfl, rfl, rfl, performs⟩
  · rintro ⟨title, tags, pending, steps⟩
    refine ⟨test.steps, steps, ?_⟩
    simp only [← title, ← tags, ← pending]

theorem ofScenario_error {fault : Fault}
    (failed : ofScenario registry feature [] scenario = .error fault) :
    ∃ step ∈ scenario.performed, registry.resolve step.text = .error fault := by
  rw [ofScenario_eq, map_eq_error] at failed
  obtain ⟨step, member, unresolved⟩ := mapM_error failed
  exact ⟨step, member, ResolvedStep.resolve_eq_error.1 unresolved⟩

end Test

/-! ## Features -/

namespace Feature

/-- The scenarios of the feature itself, behind the steps of its background. -/
def ownPlan (feature : Feature) : List Scenario :=
  feature.body.scenarios.map (Scenario.behind feature.body.backgroundSteps)

/-- The scenarios of the rules in their order, behind the steps of the background of the feature and
then those of the background of their rule. -/
def rulePlan (feature : Feature) : List Scenario :=
  feature.rules.flatMap fun rule =>
    rule.scenarios.map (Scenario.behind (feature.body.backgroundSteps ++ rule.backgroundSteps))

def plan (feature : Feature) : List Scenario :=
  feature.ownPlan ++ feature.rulePlan

def Known (registry : Registry) (scenarios : List Scenario) : Prop :=
  ∀ scenario ∈ scenarios, ∀ step ∈ scenario.performed, registry.Knows step.text

end Feature

/-- A suite is what a feature says, with a test for each scenario of its plan. -/
structure Suite.Lays (registry : Registry) (feature : Feature) (suite : Suite) : Prop where
  title : suite.title = feature.name
  description : suite.description = "\n".intercalate feature.description
  tags : suite.tags = feature.tags
  tests : List.Forall₂ (Test.Follows registry feature) feature.plan suite.tests

namespace Suite

variable {registry : Registry} {feature : Feature} {text : String} {file : Option String}

theorem testsOf_eq (registry : Registry) (feature : Feature) :
    testsOf registry feature = feature.plan.mapM (Test.ofScenario registry feature []) := by
  unfold testsOf Feature.plan Feature.ownPlan Feature.rulePlan
  -- The rules are compiled one by one, and what they give is put together afterwards.
  rw [List.mapM_append, List.mapM_map, List.flatMap_def, mapM_flatten, List.mapM_map]
  simp [Function.comp_def, Test.ofScenario_behind, List.mapM_map]

theorem compile_eq (read : Feature.read text file = .ok (some feature)) :
    compile registry text file =
      (feature.plan.mapM (Test.ofScenario registry feature [])).map fun tests =>
        ⟨feature.name, "\n".intercalate feature.description, feature.tags, tests⟩ := by
  unfold compile
  rw [read]
  change ofFeature registry feature = _
  unfold ofFeature
  rw [testsOf_eq]
  cases feature.plan.mapM (Test.ofScenario registry feature []) <;> rfl

theorem compile_eq_ok {suite : Suite} (read : Feature.read text file = .ok (some feature)) :
    compile registry text file = .ok suite ↔ suite.Lays registry feature := by
  simp only [compile_eq read, map_eq_ok, mapM_ok_iff, Test.ofScenario_eq_ok]
  constructor
  · rintro ⟨tests, follow, rfl⟩
    exact ⟨rfl, rfl, rfl, follow⟩
  · rintro ⟨title, description, tags, tests⟩
    refine ⟨suite.tests, tests, ?_⟩
    simp only [← title, ← description, ← tags]

theorem compile_error {fault : Fault} (read : Feature.read text file = .ok (some feature))
    (failed : compile registry text file = .error fault) :
    ∃ scenario ∈ feature.plan, ∃ step ∈ scenario.performed,
      registry.resolve step.text = .error fault := by
  rw [compile_eq read, map_eq_error] at failed
  obtain ⟨scenario, member, failed⟩ := mapM_error failed
  exact ⟨scenario, member, Test.ofScenario_error failed⟩

end Suite

theorem Registry.knows_iff {registry : Registry} {text : String} :
    registry.Knows text ↔ (registry.resolve text).isOk := by
  simp only [Knows, ← resolve_eq_ok]
  cases registry.resolve text with
  | error fault => exact ⟨nofun, nofun⟩
  | ok found => exact ⟨fun _ => rfl, fun _ => ⟨found, rfl⟩⟩

instance (registry : Registry) (text : String) : Decidable (registry.Knows text) :=
  decidable_of_iff _ Registry.knows_iff.symm

instance (registry : Registry) (scenarios : List Scenario) :
    Decidable (Feature.Known registry scenarios) :=
  inferInstanceAs (Decidable (∀ scenario ∈ scenarios, ∀ step ∈ scenario.performed,
    registry.Knows step.text))

theorem Feature.Known.resolves {registry : Registry} {scenarios : List Scenario}
    (known : Known registry scenarios) {scenario : Scenario} (member : scenario ∈ scenarios)
    {step : FeatureStep} (performed : step ∈ scenario.performed) (fault : Fault) :
    registry.resolve step.text ≠ .error fault := by
  obtain ⟨found, first⟩ := known scenario member step performed
  rw [Registry.resolve_eq_ok.2 first]
  nofun

/-- A feature whose steps all have definitions is compiled, and the suite has the tests of its own
scenarios and then of those of its rules, in the order of the text. -/
theorem feature_laid_out {registry : Registry} {text : String} {file : Option String}
    {feature : Feature} (read : Feature.read text file = .ok (some feature))
    (known : Feature.Known registry feature.plan) :
    ∃ suite, Suite.compile registry text file = .ok suite ∧ suite.Lays registry feature := by
  cases compiled : Suite.compile registry text file with
  | ok suite => exact ⟨suite, rfl, (Suite.compile_eq_ok read).1 compiled⟩
  | error fault =>
    obtain ⟨scenario, member, step, performed, failed⟩ := Suite.compile_error read compiled
    exact absurd failed (known.resolves member performed fault)

def fileText (rows : List String) : String :=
  String.ofList (rows.flatMap fun row => row.toList ++ ['\n'])

theorem Feature.read_fileText (rows : List String) (file : Option String) :
    Feature.read (fileText rows) file = (FeatureReader.initial.readLines file 1
      (Text.lines (rows.flatMap fun row => row.toList ++ ['\n']))).map FeatureReader.result := by
  unfold read fileText
  rw [String.toList_ofList]
  cases FeatureReader.initial.readLines file 1 _ <;> rfl

/-- A feature with a background, a step with a table and a text, an outline and two rules. -/
def layeredText : String :=
  fileText ["Feature: Cranes", "Background:", " Given the hall is open",
    "Scenario:", " When 2 wings fold", "  | wing |", "  | left |", "  \"\"\"", "  gently", "  \"\"\"",
    "Scenario Outline: Later", " When <n> wings fly",
    "Rule: Rests", " Background:", "  Given all rest", " Scenario: Ruled", "  Then two wings fold",
    "Rule: Ends", " Scenario: Closed", "  Then the hall is open"]

/-- Definitions of which two match the folding of a number of wings. -/
def wingRegistry : Registry :=
  let define (source : String) (parts : List PatternPart) : StepDefinition :=
    ⟨"given", .placeholders ⟨source, .strict, parts⟩,
      .script source ⟨[], 0, true, []⟩ false false 0 [], ""⟩
  ⟨[define "the hall is open" [.literal "the hall is open".toList],
    define "\x7bint\x7d wings fold" [.placeholder ⟨.int, false⟩, .literal " wings fold".toList],
    define "\x7bword\x7d wings fold" [.placeholder ⟨.word, false⟩, .literal " wings fold".toList],
    define "all rest" [.literal "all rest".toList]], .text "strict"⟩

theorem feature_laid_out_layered : ∃ feature suite,
    Feature.read layeredText none = .ok (some feature) ∧
    Suite.compile wingRegistry layeredText none = .ok suite ∧ suite.Lays wingRegistry feature ∧
    feature.plan.map (fun scenario => (scenario.name, scenario.performed.map (·.text))) =
      [("", ["the hall is open", "2 wings fold"]), ("Later", []),
        ("Ruled", ["the hall is open", "all rest", "two wings fold"]),
        ("Closed", ["the hall is open", "the hall is open"])] := by
  have whole : ((Feature.read layeredText none).toOption.join.map fun feature =>
      (decide (Feature.Known wingRegistry feature.plan),
        feature.plan.map fun scenario => (scenario.name, scenario.performed.map (·.text)))) =
      some (true, [("", ["the hall is open", "2 wings fold"]), ("Later", []),
        ("Ruled", ["the hall is open", "all rest", "two wings fold"]),
        ("Closed", ["the hall is open", "the hall is open"])]) := by
    rw [layeredText, Feature.read_fileText]
    decide +kernel
  obtain ⟨feature, found, checked⟩ := Option.map_eq_some_iff.1 whole
  obtain ⟨known, plan⟩ := Prod.mk.inj checked
  have read := eq_ok_of_toOption (Option.join_eq_some_iff.1 found)
  obtain ⟨suite, compiled, lays⟩ := feature_laid_out read (of_decide_eq_true known)
  exact ⟨feature, suite, read, compiled, lays, plan⟩

end FeatureRunner
