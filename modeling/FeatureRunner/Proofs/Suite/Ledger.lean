import FeatureRunner.Proofs.Recorder.Serial

/-!
What a run of a suite does, as a ledger that is read off its history: the events that it emits, and
the step bodies that it calls, with the tasks that they add and how they end. `SuiteRuns` is the
order in which that should happen.
-/

namespace FeatureRunner
open FeatureRunner.World

/-- An entry of the ledger. -/
inductive Entry
  | emitted (event : String) (args : List Value)
  | called (callable : Callable) (args : List Value)
  /-- A step body has added a task. -/
  | added (number : Nat)
  /-- A step body has ended, while a task was the last of the chain. -/
  | returned (outcome : Outcome) (tail : Option Nat)

/-- What the next step enters into the ledger. -/
def World.entry? (world : World) : Option Entry :=
  match world.act? with
  | some (_, .ask (.subscribers .run event args)) => some (.emitted event args)
  | some (_, .call .step callable args) => some (.called callable args)
  | some (_, .add .step _ _) => if world.looping then some (.added world.tasks.length) else none
  | some (_, .leave .step outcome) => some (.returned outcome world.recorder.tail)
  | _ => none

namespace World.History

def ledger (passed : History) : List Entry :=
  passed.filterMap World.entry?

theorem ledger_append (passed : History) (world : World) :
    History.ledger (passed ++ [world]) = passed.ledger ++ world.entry?.toList := by
  simp only [ledger, List.filterMap_append]
  cases found : world.entry? <;> simp [found]

/-- The tasks that a task of the chain comes after, and the task itself, as far back as the chain
was not abandoned. -/
inductive Chain (passed : History) : Option Nat → Nat → Prop
  | last {number : Nat} : Chain passed (some number) number
  | before {link : Link} {number : Nat} (member : link ∈ passed.links) (work : link.work.isSome)
      (further : Chain passed link.previous number) : Chain passed (some link.number) number

/-- All tasks of a chain have ended well, and some tasks are among them if nobody else detached
the chain. -/
def Drained (attached : Prop) (passed : History) (world : World) (added : List Nat)
    (tail : Option Nat) : Prop :=
  (∀ number, passed.Chain tail number → ∃ value, world.outcome? number = some (.ok value)) ∧
    (attached → ∀ number ∈ added, passed.Chain tail number)

/-- One of some tasks is in a chain, has begun and has ended with a fault. -/
def Sunk (passed : History) (world : World) (added : List Nat) (tail : Option Nat)
    (fault : Fault) : Prop :=
  ∃ number ∈ added, passed.Chain tail number ∧ passed.said number ≠ [] ∧
    world.outcome? number = some (.error (.fault fault))

theorem Chain.append {passed : History} {tail : Option Nat} {number : Nat}
    (chain : passed.Chain tail number) (world : World) :
    History.Chain (passed ++ [world]) tail number := by
  induction chain with
  | last => exact .last
  | before member work _ ih =>
    refine .before ?_ work ih
    rw [links_append]
    exact List.mem_append_left _ member

end World.History

/-- The call of the body of a step. -/
def ResolvedStep.entry (step : ResolvedStep) : Entry :=
  .called step.found.definition.callable
    (step.found.definition.callable.fitArguments (step.found.arguments []))

/-- Steps are run in order, each once, up to the first whose body fails or with what was added in it
draining into a fault. -/
inductive StepsRun (drained : List Nat → Option Nat → Prop) (sunk : List Nat → Option Nat → Fault → Prop) :
    List ResolvedStep → List Entry → Option Fault → Prop
  | done : StepsRun drained sunk [] [] none
  | passes {step : ResolvedStep} {rest : List ResolvedStep} {added : List Nat} {value : Value}
      {tail : Option Nat} {ledger : List Entry} {ending : Option Fault} (well : drained added tail)
      (further : StepsRun drained sunk rest ledger ending) :
      StepsRun drained sunk (step :: rest)
        (step.entry :: added.map .added ++ .returned (.ok value) tail :: ledger) ending
  | raises {step : ResolvedStep} {rest : List ResolvedStep} {added : List Nat} {fault : Fault}
      {tail : Option Nat} : StepsRun drained sunk (step :: rest)
        (step.entry :: added.map .added ++ [.returned (.error (.fault fault)) tail]) (some fault)
  | sinks {step : ResolvedStep} {rest : List ResolvedStep} {added : List Nat} {value : Value}
      {tail : Option Nat} {fault : Fault} (ill : sunk added tail fault) :
      StepsRun drained sunk (step :: rest)
        (step.entry :: added.map .added ++ [.returned (.ok value) tail]) (some fault)

/-- A test is begun, skipped, passed or failed with a fault, and finished. -/
inductive TestRuns (drained : List Nat → Option Nat → Prop) (sunk : List Nat → Option Nat → Fault → Prop)
    (test : Test) : List Entry → Option Fault → Prop
  | skipped (pending : test.pending = true) : TestRuns drained sunk test
      [.emitted testStarted [.test test.card], .emitted testSkipped [.test test.card],
        .emitted testFinished [.test test.card]] none
  | passed {steps : List Entry} (ready : test.pending = false)
      (ran : StepsRun drained sunk test.steps steps none) : TestRuns drained sunk test
      (.emitted testStarted [.test test.card] :: steps ++
        [.emitted testPassed [.test test.card], .emitted testFinished [.test test.card]]) none
  | failed {steps : List Entry} {fault : Fault} (ready : test.pending = false)
      (ran : StepsRun drained sunk test.steps steps (some fault)) : TestRuns drained sunk test
      (.emitted testStarted [.test test.card] :: steps ++
        [.emitted testFailed [.test test.card, .fault fault],
          .emitted testFinished [.test test.card]]) (some fault)

/-- Tests are run in order. -/
inductive TestsRun (drained : List Nat → Option Nat → Prop) (sunk : List Nat → Option Nat → Fault → Prop) :
    List Test → List Entry → List (Option Fault) → Prop
  | done : TestsRun drained sunk [] [] []
  | next {test : Test} {rest : List Test} {first ledger : List Entry} {ending : Option Fault}
      {endings : List (Option Fault)} (ran : TestRuns drained sunk test first ending)
      (further : TestsRun drained sunk rest ledger endings) :
      TestsRun drained sunk (test :: rest) (first ++ ledger) (ending :: endings)

/-- What a test answers. -/
def Test.outcome (ending : Option Fault) : Outcome :=
  ending.elim (.ok .null) fun fault => .error (.fault fault)

/-- A test with the fault that it ended with, or null. -/
def Test.report (test : Test) (ending : Option Fault) : Value :=
  .tuple [.test test.card, ending.elim .null .fault]

/-- A suite is begun, its tests are run, and it is ended; it answers how each test ended. -/
def SuiteRuns (drained : List Nat → Option Nat → Prop) (sunk : List Nat → Option Nat → Fault → Prop)
    (suite : Suite) (ledger : List Entry) (outcome : Outcome) : Prop :=
  ∃ entries endings, TestsRun drained sunk suite.tests entries endings ∧
    ledger = .emitted suiteBefore [.suite suite.card] :: entries ++
      [.emitted suiteAfter [.suite suite.card]] ∧
    outcome = .ok (.list (List.zipWith Test.report suite.tests endings))

section Weaken

variable {drained drained' : List Nat → Option Nat → Prop}
  {sunk sunk' : List Nat → Option Nat → Fault → Prop}
  (well : ∀ added tail, drained added tail → drained' added tail)
  (ill : ∀ added tail fault, sunk added tail fault → sunk' added tail fault)
include well ill

theorem StepsRun.weaken {steps : List ResolvedStep} {ledger : List Entry} {ending : Option Fault}
    (ran : StepsRun drained sunk steps ledger ending) :
    StepsRun drained' sunk' steps ledger ending := by
  induction ran with
  | done => exact .done
  | passes known _ ih => exact .passes (well _ _ known) ih
  | raises => exact .raises
  | sinks known => exact .sinks (ill _ _ _ known)

theorem TestRuns.weaken {test : Test} {ledger : List Entry} {ending : Option Fault}
    (ran : TestRuns drained sunk test ledger ending) : TestRuns drained' sunk' test ledger ending := by
  cases ran with
  | skipped pending => exact .skipped pending
  | passed ready ran => exact .passed ready (ran.weaken well ill)
  | failed ready ran => exact .failed ready (ran.weaken well ill)

theorem TestsRun.weaken {tests : List Test} {ledger : List Entry} {endings : List (Option Fault)}
    (ran : TestsRun drained sunk tests ledger endings) :
    TestsRun drained' sunk' tests ledger endings := by
  induction ran with
  | done => exact .done
  | next ran _ ih => exact .next (ran.weaken well ill) ih

end Weaken

end FeatureRunner
