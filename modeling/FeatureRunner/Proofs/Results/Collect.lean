import FeatureRunner.Proofs.Suite.Ledger
import FeatureRunner.Reporting

/-!
The results that come of the events of suites. Each suite adds one feature and each of its tests one
scenario, whose status is how the test ended; so the counts of the results are those of the tests.
-/

namespace FeatureRunner

/-- What the collector hears of: an event with its arguments. -/
abbrev Due := CollectorEvent × List Value

/-- What an event is to the collector. -/
def collectorEvent? (event : String) : Option CollectorEvent :=
  (collectedEvents.find? (·.1 == event)).map (·.2)

/-- What an entry of the ledger is to the collector. -/
def Entry.due? : Entry → Option Due
  | .emitted event args => (collectorEvent? event).map (·, args)
  | _ => none

/-- The results after some events, each with the time at which it was heard. -/
def Results.collectAll (results : Results) (heard : List (String × Due)) : Results :=
  heard.foldl (fun results entry => (results.collect entry.1 entry.2.1 entry.2.2).2) results

namespace Results

@[simp] theorem collectAll_nil (results : Results) : results.collectAll [] = results := rfl

@[simp] theorem collectAll_cons (results : Results) (first : String × Due)
    (rest : List (String × Due)) : results.collectAll (first :: rest) =
      (results.collect first.1 first.2.1 first.2.2).2.collectAll rest := rfl

@[simp] theorem collectAll_append (results : Results) (first rest : List (String × Due)) :
    results.collectAll (first ++ rest) = (results.collectAll first).collectAll rest :=
  List.foldl_append

end Results

/-! ## What is due of a suite -/

/-- What tells how a test has ended. -/
def Test.verdict (test : Test) (ending : Option Fault) : Due :=
  if test.pending then (.testSkipped, [.test test.card])
  else match ending with
    | none => (.testPassed, [.test test.card])
    | some fault => (.testFailed, [.test test.card, .fault fault])

def Test.dues (test : Test) (ending : Option Fault) : List Due :=
  [(.testStarted, [.test test.card]), test.verdict ending, (.testFinished, [.test test.card])]

/-- A test with how it ended: a pending test cannot fail. -/
abbrev Test.Ends (test : Test) (ending : Option Fault) : Prop :=
  test.pending = true → ending = none

section Dues

variable {drained : List Nat → Option Nat → Prop} {sunk : List Nat → Option Nat → Fault → Prop}

/-- Steps are none of the collector's business. -/
theorem dues_of_steps {steps : List ResolvedStep} {ledger : List Entry} {ending : Option Fault}
    (ran : StepsRun drained sunk steps ledger ending) : ledger.filterMap Entry.due? = [] := by
  rw [List.filterMap_eq_nil_iff]
  induction ran with
  | done => simp
  | passes _ _ ih =>
    simp only [List.mem_append, List.mem_cons, List.mem_map]
    rintro _ ((rfl | ⟨number, _, rfl⟩) | rfl | member)
    · rfl
    · rfl
    · rfl
    · exact ih _ member
  | raises | sinks =>
    simp only [List.mem_append, List.mem_cons, List.mem_map, List.not_mem_nil, or_false]
    rintro _ ((rfl | ⟨number, _, rfl⟩) | rfl) <;> rfl

theorem dues_of_test {test : Test} {ledger : List Entry} {ending : Option Fault}
    (ran : TestRuns drained sunk test ledger ending) :
    ledger.filterMap Entry.due? = test.dues ending ∧ test.Ends ending := by
  cases ran with
  | skipped pending =>
    refine ⟨?_, fun _ => rfl⟩
    rw [Test.dues, Test.verdict, if_pos pending]
    rfl
  | passed ready ran =>
    have ready : ¬test.pending = true := by simp [ready]
    refine ⟨?_, fun _ => rfl⟩
    rw [Test.dues, Test.verdict, if_neg ready, List.filterMap_append, List.filterMap_cons,
      dues_of_steps ran]
    rfl
  | failed ready ran =>
    have ready : ¬test.pending = true := by simp [ready]
    refine ⟨?_, fun pending => absurd pending ready⟩
    rw [Test.dues, Test.verdict, if_neg ready, List.filterMap_append, List.filterMap_cons,
      dues_of_steps ran]
    rfl

theorem dues_of_tests {tests : List Test} {ledger : List Entry} {endings : List (Option Fault)}
    (ran : TestsRun drained sunk tests ledger endings) :
    ledger.filterMap Entry.due? = (List.zipWith Test.dues tests endings).flatten ∧
      List.Forall₂ Test.Ends tests endings := by
  induction ran with
  | done => exact ⟨rfl, .nil⟩
  | next ran _ ih =>
    obtain ⟨dues, ends⟩ := dues_of_test ran
    refine ⟨?_, .cons ends ih.2⟩
    rw [List.filterMap_append, dues, ih.1]
    rfl

/-- What is due of a suite. -/
def Suite.dues (suite : Suite) (endings : List (Option Fault)) : List Due :=
  (.suiteBefore, [.suite suite.card]) :: (List.zipWith Test.dues suite.tests endings).flatten ++
    [(.suiteAfter, [.suite suite.card])]

theorem dues_of_suite {suite : Suite} {entries : List Entry} {endings : List (Option Fault)}
    (ran : TestsRun drained sunk suite.tests entries endings) :
    List.filterMap Entry.due? (.emitted suiteBefore [.suite suite.card] :: entries ++
      [.emitted suiteAfter [.suite suite.card]]) = suite.dues endings := by
  rw [Suite.dues, List.filterMap_append, List.filterMap_cons, (dues_of_tests ran).1]
  rfl

end Dues

/-! ## Reports -/

/-- A scenario of the results reports how a test ended. -/
structure ScenarioResult.Reports (scenario : ScenarioResult) (test : Test) (ending : Option Fault) :
    Prop where
  name : scenario.name = test.title
  tags : scenario.tags = test.tags
  steps : scenario.steps = test.steps.map ResolvedStep.card
  skipped : scenario.status = .skipped ↔ test.pending = true
  failed : scenario.status = .failed ↔ ending.isSome
  passed : scenario.status = .passed ↔ test.pending = false ∧ ending = none
  error : scenario.error = ending.map Fault.message

/-- A feature of the results reports on a suite, scenario by scenario. -/
structure FeatureResult.Reports (feature : FeatureResult) (suite : Suite)
    (endings : List (Option Fault)) : Prop where
  title : feature.feature = suite.title
  tags : feature.tags = suite.tags
  length : endings.length = suite.tests.length
  scenarios : List.Forall₂ (fun scenario (test, ending) => ScenarioResult.Reports scenario test ending)
    feature.scenarios (suite.tests.zip endings)
  failed : feature.failed = true ↔ ∃ scenario ∈ feature.scenarios, scenario.status = .failed

/-- A scenario is never left running. -/
theorem ScenarioResult.Reports.ended {scenario : ScenarioResult} {test : Test}
    {ending : Option Fault} (reports : scenario.Reports test ending) :
    scenario.status ≠ .running := by
  intro running
  have skipped := reports.skipped
  have failed := reports.failed
  have passed := reports.passed
  simp only [running, reduceCtorEq, false_iff] at skipped failed passed
  simp_all

/-! ## Collecting -/

section Collect

variable {results : Results} {before : List FeatureResult} {feature : FeatureResult}
  {scenario : ScenarioResult} (now : String)

/-- The last feature of the results is open. -/
structure Results.Within (results : Results) (before : List FeatureResult) (feature : FeatureResult) :
    Prop where
  features : results.features = before ++ [feature]
  openFeature : results.openFeature = some before.length

/-- Its last scenario is open, too. -/
structure Results.Inside (results : Results) (before : List FeatureResult) (feature : FeatureResult)
    (scenario : ScenarioResult) : Prop extends
    results.Within before { feature with scenarios := feature.scenarios ++ [scenario] } where
  openScenario : results.openScenario = some (before.length, feature.scenarios.length)

theorem modify_last {α : Type} (items : List α) (item : α) (change : α → α) :
    (items ++ [item]).modify items.length change = items ++ [change item] := by
  induction items with
  | nil => rfl
  | cons first rest ih => simp [ih]

namespace Results

theorem Within.update (within : results.Within before feature)
    (change : FeatureResult → FeatureResult) :
    (results.updateFeature before.length change).Within before (change feature) where
  features := by simp [updateFeature, within.features, modify_last]
  openFeature := within.openFeature

theorem Inside.update (inside : results.Inside before feature scenario)
    (change : ScenarioResult → ScenarioResult) :
    (results.updateScenario change).Inside before feature (change scenario) := by
  have same : results.updateScenario change = results.updateFeature before.length fun result =>
      { result with scenarios := result.scenarios.modify feature.scenarios.length change } := by
    simp only [updateScenario, inside.openScenario]
  rw [same]
  have updated := inside.toWithin.update fun result =>
    { result with scenarios := result.scenarios.modify feature.scenarios.length change }
  simp only [modify_last] at updated
  exact ⟨updated, inside.openScenario⟩

theorem Within.begin (within : results.Within before feature) (card : TestCard) :
    (results.collect now .testStarted [.test card]).2.Inside before feature
      ⟨card.title, card.tags, card.steps, .running, now, none, none⟩ := by
  have place : results.features[before.length]? = some feature := by simp [within.features]
  have begun := (within.update fun feature => { feature with scenarios := feature.scenarios ++
    [⟨card.title, card.tags, card.steps, .running, now, none, none⟩] })
  constructor
  case openScenario =>
    simp [collect, ensureFeature, started, beginScenario, within.openFeature, place]
  case toWithin =>
    constructor
    · simpa [collect, ensureFeature, started, beginScenario, within.openFeature, updateFeature]
        using begun.features
    · simp [collect, ensureFeature, started, beginScenario, within.openFeature, updateFeature]

theorem Inside.settle (inside : results.Inside before feature scenario) (status : ScenarioStatus)
    (error : Option String) : (results.setStatus status error).Inside before
      { feature with failed := feature.failed || status = .failed }
      { scenario with status := status, error := error.or scenario.error } := by
  have opened : results.openScenario.isNone = false := by rw [inside.openScenario]; rfl
  have updated := inside.update fun scenario =>
    { scenario with status := status, error := error.or scenario.error }
  unfold setStatus
  rw [if_neg (by simp [opened])]
  have failing := updated.toWithin.update fun feature => { feature with failed := true }
  cases status with
  | failed =>
    simp only [updated.openFeature]
    exact ⟨⟨by simpa using failing.features, failing.openFeature⟩, updated.openScenario⟩
  | _ => simpa using updated

theorem Inside.finish (inside : results.Inside before feature scenario) (value : Value) :
    (results.collect now .testFinished [value]).2.Within before
      { feature with scenarios := feature.scenarios ++ [{ scenario with endTime := some now }] } := by
  have ended := (inside.update fun scenario => { scenario with endTime := some now }).toWithin
  exact ⟨ended.features, ended.openFeature⟩

theorem Within.close (within : results.Within before feature) (value : Value) :
    (results.collect now .suiteAfter [value]).2.features =
      before ++ [{ feature with endTime := some now }] := by
  have closed := within.update fun feature => { feature with endTime := some now }
  simp only [collect, endFeature, within.openFeature]
  exact closed.features

end Results

end Collect

/-- The status of a test that has ended. -/
def Test.status (test : Test) (ending : Option Fault) : ScenarioStatus :=
  if test.pending then .skipped else if ending.isSome then .failed else .passed

section Heard

variable {results : Results} {before : List FeatureResult} {feature : FeatureResult}
  {heard : List (String × Due)}

theorem collect_verdict {test : Test} {ending : Option Fault} (ends : test.Ends ending) (now : String) :
    (results.collect now (test.verdict ending).1 (test.verdict ending).2).2 =
      results.setStatus (test.status ending) (ending.map Fault.message) := by
  unfold Test.verdict Test.status
  by_cases pending : test.pending = true
  · obtain rfl := ends pending
    simp only [if_pos pending]
    rfl
  · simp only [if_neg pending]
    cases ending <;> rfl

theorem status_cases (test : Test) (ending : Option Fault) : test.status ending = .passed ∨
    test.status ending = .failed ∨ test.status ending = .skipped := by
  unfold Test.status
  split
  · simp
  · split <;> simp

theorem status_failed {test : Test} {ending : Option Fault} (ends : test.Ends ending) :
    test.status ending = .failed ↔ ending.isSome := by
  unfold Test.status
  split
  · simp [ends ‹_›]
  · split <;> simp_all

/-- The results with a test that has been run. -/
theorem collect_test {test : Test} {ending : Option Fault} (ends : test.Ends ending)
    (within : results.Within before feature) (dues : heard.map (·.2) = test.dues ending) :
    ∃ scenario, ScenarioResult.Reports scenario test ending ∧ (results.collectAll heard).Within before
      { feature with
        scenarios := feature.scenarios ++ [scenario], failed := feature.failed || ending.isSome } := by
  match heard, dues with
  | [(first, begun), (second, verdict), (third, finished)], dues =>
    obtain ⟨rfl, rfl, rfl⟩ : begun = (.testStarted, [.test test.card]) ∧ verdict = test.verdict ending ∧
        finished = (.testFinished, [.test test.card]) := by simpa [Test.dues] using dues
    have settled := ((within.begin first test.card).settle (test.status ending)
      (ending.map Fault.message)).finish third (.test test.card)
    rw [← collect_verdict ends second] at settled
    refine ⟨_, ?_, by simpa [status_failed ends] using settled⟩
    constructor
    case failed => exact status_failed ends
    case skipped => cases pending : test.pending <;> cases ending <;> simp [Test.status, pending]
    case passed => cases pending : test.pending <;> cases ending <;> simp [Test.status, pending]
    all_goals simp [Test.card]

/-- The results with tests that have been run in order. -/
theorem collect_tests {tests : List Test} {endings : List (Option Fault)}
    (ends : List.Forall₂ Test.Ends tests endings) (within : results.Within before feature)
    (dues : heard.map (·.2) = (List.zipWith Test.dues tests endings).flatten) :
    ∃ scenarios, List.Forall₂ (fun scenario (test, ending) => ScenarioResult.Reports scenario test ending)
        scenarios (tests.zip endings) ∧ (results.collectAll heard).Within before
      { feature with
        scenarios := feature.scenarios ++ scenarios
        failed := feature.failed || endings.any Option.isSome } := by
  induction ends generalizing results feature heard with
  | nil =>
    obtain rfl := List.map_eq_nil_iff.1 dues
    exact ⟨[], .nil, by simpa using within⟩
  | @cons test ending tests endings ends _ ih =>
    obtain ⟨first, rest, rfl, mine, others⟩ := List.map_eq_append_iff.1 dues
    obtain ⟨scenario, reports, within⟩ := collect_test ends within mine
    obtain ⟨scenarios, all, within⟩ := ih within others
    refine ⟨scenario :: scenarios, .cons reports all, ?_⟩
    simpa [Results.collectAll, Bool.or_assoc] using within

theorem failed_iff {scenarios : List ScenarioResult} {tests : List (Test × Option Fault)}
    (reports : List.Forall₂ (fun scenario (test, ending) => ScenarioResult.Reports scenario test ending)
      scenarios tests) :
    (∃ scenario ∈ scenarios, scenario.status = .failed) ↔ ∃ test ∈ tests, test.2.isSome := by
  induction reports with
  | nil => simp
  | cons first _ ih => simp [first.failed, ih]

/-- The results with a suite that has been run. -/
theorem collect_suite {suite : Suite} {endings : List (Option Fault)}
    (ends : List.Forall₂ Test.Ends suite.tests endings)
    (dues : heard.map (·.2) = suite.dues endings) :
    ∃ feature, FeatureResult.Reports feature suite endings ∧
      (results.collectAll heard).features = results.features ++ [feature] := by
  obtain ⟨front, last, rfl, first, ended⟩ := List.map_eq_append_iff.1 dues
  obtain ⟨⟨now, _⟩, middle, rfl, rfl, tests⟩ := List.map_eq_cons_iff.1 first
  obtain ⟨⟨later, _⟩, rfl, rfl⟩ := List.map_eq_singleton_iff.1 ended
  have within : (results.collect now .suiteBefore [.suite suite.card]).2.Within results.features
      ⟨suite.title, suite.tags, [], false, now, none⟩ := ⟨rfl, rfl⟩
  obtain ⟨scenarios, reports, within⟩ := collect_tests ends within tests
  have closed := within.close later (.suite suite.card)
  refine ⟨_, ?_, by simpa using closed⟩
  constructor
  case scenarios => simpa using reports
  case length => exact ends.length_eq.symm
  case failed =>
    have any : endings.any Option.isSome =
        (suite.tests.zip endings).any (Option.isSome ∘ Prod.snd) := by
      rw [← List.any_map, List.map_snd_zip (Nat.le_of_eq ends.length_eq.symm)]
    have known : endings.any Option.isSome = true ↔
        ∃ scenario ∈ scenarios, scenario.status = .failed := by
      rw [any, failed_iff reports]
      simp
    exact known
  all_goals rfl

end Heard

/-! ## Counting -/

/-- Suites that have been run, with how their tests ended. -/
abbrev SuitesRan := List (Suite × List (Option Fault))

/-- Their tests. -/
def SuitesRan.tests (ran : SuitesRan) : List (Test × Option Fault) :=
  ran.flatMap fun (suite, endings) => suite.tests.zip endings

/-- The features of the results report on suites in order. -/
abbrev Results.Report (features : List FeatureResult) (ran : SuitesRan) : Prop :=
  List.Forall₂ (fun feature (suite, endings) => FeatureResult.Reports feature suite endings)
    features ran

section Count

variable {features : List FeatureResult} {results : Results} {ran : SuitesRan}

theorem ScenarioResult.Reports.status_eq {scenario : ScenarioResult} {test : Test}
    {ending : Option Fault} (reports : ScenarioResult.Reports scenario test ending) :
    scenario.status = test.status ending := by
  have skipped := reports.skipped
  have failed := reports.failed
  have passed := reports.passed
  unfold Test.status
  split
  · exact skipped.2 ‹_›
  · split
    · exact failed.2 ‹_›
    · exact passed.2 ⟨by simp_all, by simp_all⟩

theorem scenarios_report (reports : Results.Report features ran) :
    List.Forall₂ (fun scenario (test, ending) => ScenarioResult.Reports scenario test ending)
      (features.flatMap (·.scenarios)) ran.tests := by
  induction reports with
  | nil => exact .nil
  | cons first _ ih => exact List.rel_append first.scenarios ih

/-- The results count the tests by how they ended. -/
theorem count_eq (reports : Results.Report results.features ran) (status : ScenarioStatus) :
    results.count status = ran.tests.countP fun (test, ending) => test.status ending = status := by
  have all := scenarios_report reports
  rw [Results.count, ← List.countP_eq_length_filter]
  generalize results.features.flatMap (·.scenarios) = scenarios at all
  generalize ran.tests = tests at all
  induction all with
  | nil => rfl
  | cons first _ ih => simp [List.countP_cons, ih, first.status_eq]

theorem total_eq (reports : Results.Report results.features ran) :
    results.total = ran.tests.length ∧ results.total =
      results.count .passed + results.count .failed + results.count .skipped := by
  have length := (scenarios_report reports).length_eq
  refine ⟨length, ?_⟩
  rw [count_eq reports, count_eq reports, count_eq reports, Results.total, length]
  generalize ran.tests = tests
  induction tests with
  | nil => rfl
  | cons first rest ih =>
    simp only [List.length_cons, List.countP_cons, ih]
    rcases status_cases first.1 first.2 with ended | ended | ended <;> simp [ended] <;> omega

end Count

end FeatureRunner
