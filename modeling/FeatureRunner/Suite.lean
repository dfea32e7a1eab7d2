import FeatureRunner.Dispatcher
import FeatureRunner.Recorder
import FeatureRunner.Registry

/-!
Compiled features. A test runs its steps in order and drains the recorder after each, so no step
begins before everything that the last one dispatched has ended; a suite runs its tests in order.
-/

namespace FeatureRunner

/-- The names of the events of suites and tests. -/
def suiteBefore : String := "suite.before"
def suiteAfter : String := "suite.after"
def testStarted : String := "test.started"
def testPassed : String := "test.passed"
def testFailed : String := "test.failed"
def testSkipped : String := "test.skipped"
def testFinished : String := "test.finished"

/-- A step of a scenario with the match that performs it. -/
structure ResolvedStep where
  keyword : String
  text : String
  found : StepMatch

/-- A compiled scenario. -/
structure Test where
  title : String
  steps : List ResolvedStep
  tags : List String
  /-- A pending test is skipped. -/
  pending : Bool

/-- A compiled feature. -/
structure Suite where
  title : String
  description : String
  tags : List String
  tests : List Test

def ResolvedStep.card (step : ResolvedStep) : StepCard :=
  ⟨step.keyword, step.text⟩

/-- Calls the body of a step and waits for its result. -/
def ResolvedStep.run (step : ResolvedStep) : Program Value :=
  step.found.call []

namespace Test

/-- A test as listeners are told about it. -/
def card (test : Test) : TestCard :=
  ⟨test.title, test.tags, test.steps.map ResolvedStep.card⟩

/-- Adds a recorder task that tells listeners of an event. -/
def fire (name event : String) (args : List Value) : Program Unit := do
  let _ ← Program.addFor .run name (do
    emitFor .run event args
    return .null)

/-- Adds the task that ends a test, and waits for the recorder. -/
def conclude (test : Test) : Program Unit := do
  fire "finish test" testFinished [.test test.card]
  Recorder.drainNow

/-- Runs steps, each of them to the end of all that it dispatched. -/
def runSteps : List ResolvedStep → Program Unit
  | [] => pure ()
  | step :: rest => do
    let _ ← step.run
    Recorder.drainNow
    runSteps rest

/-- Runs a test. A failed test is reported behind the failed chain and ends with its fault. -/
def run (test : Test) : Program Value := do
  Recorder.callFor .run .startUnlessRunning
  emitFor .run testStarted [.test test.card]
  if test.pending then
    fire "skip test" testSkipped [.test test.card]
    test.conclude
    return .null
  else
    let passing : Program Value := do
      runSteps test.steps
      fire "fire test.passed" testPassed [.test test.card]
      test.conclude
      return .null
    passing.rescue fun fault => do
      Recorder.callFor .run .recover
      fire "fire test.failed" testFailed [.test test.card, .fault fault]
      test.conclude
      Program.throw fault

end Test

namespace Suite

/-- A suite as listeners are told about it. -/
def card (suite : Suite) : SuiteCard :=
  ⟨suite.title, suite.tags⟩

/-- The fault that a test ends with, or null. -/
def runTest (test : Test) : Program Value :=
  (do
    let _ ← test.run
    return .null : Program Value).rescue fun fault => pure (.fault fault)

/-- Runs tests in order and answers each with its fault. -/
def runTests : List Test → Program (List Value)
  | [] => pure []
  | test :: rest => do
    let ending ← runTest test
    return .tuple [.test test.card, ending] :: (← runTests rest)

/-- Runs a suite; the result has each test with its fault, or null. -/
def run (suite : Suite) : Program Value := do
  emitFor .run suiteBefore [.suite suite.card]
  let outcomes ← runTests suite.tests
  emitFor .run suiteAfter [.suite suite.card]
  return .list outcomes

/-- The fault of each test in the result of a run. -/
def faults : Value → List (Option Fault)
  | .list outcomes => outcomes.map fun
    | .tuple [_, .fault fault] => some fault
    | _ => none
  | _ => []

end Suite

end FeatureRunner
