import FeatureRunner.Proofs.Recorder.Link

/-!
A test without a loop. The interpreter runs what it begins to the end and never gives way: it calls
the body of a step, executes the tasks that were added meanwhile in their order, and goes on with the
next step. The first task that fails fails the rest of the queue, which is dropped.

The interpreter works on a world as a loop does, but of its tasks it only looks at how they ended.
-/

namespace FeatureRunner
open FeatureRunner.World

/-- The event that a request emits, with its arguments. -/
def Request.emission? : Request → Option (String × List Value)
  | .subscribers _ event args => some (event, args)
  | _ => none

/-- The failure that an outcome is. -/
def Outcome.failure? : Outcome → Option Failure
  | .ok _ => none
  | .error failure => some failure

namespace Sequential

structure State where
  world : World
  /-- The tasks that were added and are still to be executed, in order. -/
  queue : List Link
  /-- The failure that the tasks of the queue are dropped for. -/
  failed : Option Failure
  /-- The events that have been emitted. -/
  emitted : List (String × List Value)

namespace State

/-- Lets later tasks be executed although an earlier one fails. What is in the queue comes first, and
its failure is forgotten behind it. -/
def recover (state : State) : Except Fault Unit × State :=
  let recorder := state.world.recorder
  let (answer, world) := state.world.recover
  if state.queue.isEmpty then (answer, { state with world := world, failed := none })
  else
    let stand : Link := ⟨state.world.tasks.length, recorder.session, recorder.tail, none⟩
    (answer, { state with world := world, queue := state.queue ++ [stand] })

/-- Answers a request. -/
def ask (state : State) : (request : Request) → request.Answer × State
  | .recorder _ .recover => state.recover
  | request =>
    let (answer, world) := state.world.respond request
    (answer, { state with
      world := world
      emitted := state.emitted ++ request.emission?.toList })

/-- Puts a task at the end of the queue. -/
def add (state : State) (name : String) (body : Process) : Except Fault Nat × State :=
  let recorder := state.world.recorder
  match state.world.addTask name body with
  | (.ok number, world) =>
    let link : Link := ⟨number, recorder.session, recorder.tail, some (name, body)⟩
    (.ok number, { state with world := world, queue := state.queue ++ [link] })
  | (.error fault, world) => (.error fault, { state with world := world })

/-- Notes how a task has ended. -/
def finish (state : State) (number : Nat) (outcome : Outcome) : State :=
  { state with
    world := state.world.setState number (.done outcome)
    failed := outcome.failure? }

end State

end Sequential

/-- Runs a process to its end, if it has one. Where it would wait it goes on at once; it cannot await
a task that has not ended. -/
def Process.execute : Process → Sequential.State → Option (Outcome × Sequential.State)
  | .done outcome, state => some (outcome, state)
  | .ask request next, state =>
    let (answer, state) := state.ask request
    next answer |>.execute state
  | .call role callable args next, state =>
    (callable.process role args).andThen next |>.execute state
  | .leave _ _ rest, state => rest |>.execute state
  | .add _ name body next, state =>
    let (answer, state) := state.add name body
    next answer |>.execute state
  | .await task next, state =>
    if state.world.tasks.length ≤ task then
      next (.error (.fault .resultNotSet)) |>.execute state
    else match state.world.outcome? task with
      | some outcome => next outcome |>.execute state
      | none => none
  | .join _ rest, state => rest |>.execute state
  | .wait _ rest, state => rest |>.execute state
  | .yield rest, state => rest |>.execute state
partial_fixpoint

namespace Sequential

/-- Executes a task of the queue, or drops it if a task before it has failed. What stands for an
abandoned queue ends well in any case. -/
def perform (link : Link) (state : State) : Option State :=
  match link.work, state.failed with
  | none, _ => some (state.finish link.number (.ok Recorder.waitResult))
  | some _, some failure => some (state.finish link.number (.error failure))
  | some (name, body), none => do
    let (outcome, state) ←
      (Recorder.task link.session none name (.ofProcess body)).toProcess.execute state
    return state.finish link.number outcome

/-- Executes tasks one after the other. -/
def performAll : List Link → State → Option State
  | [], state => some state
  | link :: rest, state => do performAll rest (← perform link state)

/-- A computation of the interpreter, which may not end. -/
def Interpreter (α : Type) : Type :=
  State → Option (Except Failure α × State)

namespace Interpreter

instance : Monad Interpreter where
  pure value := fun state => some (.ok value, state)
  bind first further := fun state =>
    match first state with
    | some (.ok value, state) => further value state
    | some (.error failure, state) => some (.error failure, state)
    | none => none

theorem bind_apply {α β : Type} (first : Interpreter α) (further : α → Interpreter β)
    (state : State) : (first >>= further) state =
      match first state with
      | some (.ok value, state) => further value state
      | some (.error failure, state) => some (.error failure, state)
      | none => none := rfl

/-- Ends with a fault. -/
def throw {α : Type} (fault : Fault) : Interpreter α :=
  fun state => some (.error (.fault fault), state)

/-- Goes on with a handler when a fault arises. -/
def rescue {α : Type} (first : Interpreter α) (handler : Fault → Interpreter α) : Interpreter α :=
  fun state =>
    match first state with
    | some (.error (.fault fault), state) => handler fault state
    | result => result

/-- Runs a program to its end. -/
def run (program : Program Value) : Interpreter Value :=
  program.toProcess.execute

/-- Tells the listeners of an event. -/
def emit (event : String) (args : List Value) : Interpreter Unit := do
  let _ ← run (do
    emitFor .run event args
    return .null)

/-- Adds a task that tells the listeners of an event. -/
def fire (name event : String) (args : List Value) : Interpreter Unit := fun state =>
  let body : Program Value := do
    emitFor .run event args
    return .null
  let (answer, state) := state.add name body.toProcess
  some ((answer.mapError .fault).map fun _ => (), state)

def recover : Interpreter Unit := fun state =>
  let (answer, state) := state.recover
  some (answer.mapError .fault, state)

/-- Executes the queue and ends as its last task does. -/
def drain : Interpreter Unit := fun state => do
  let state ← performAll state.queue { state with queue := [] }
  match state.failed with
  | none => return (.ok (), state)
  | some failure => return (.error failure, state)

/-- Calls the bodies of steps, and executes after each what it has added. -/
def runSteps : List ResolvedStep → Interpreter Unit
  | [] => pure ()
  | step :: rest => do
    let _ ← run step.run
    drain
    runSteps rest

/-- Adds the task that ends a test, and executes the queue. -/
def conclude (test : Test) : Interpreter Unit := do
  fire "finish test" testFinished [.test test.card]
  drain

/-- Runs a test. A failed test is reported behind what is left in the queue, and ends with its
fault. -/
def runTest (test : Test) : Interpreter Value := do
  emit testStarted [.test test.card]
  if test.pending then
    fire "skip test" testSkipped [.test test.card]
    conclude test
    return .null
  else
    let passing : Interpreter Value := do
      runSteps test.steps
      fire "fire test.passed" testPassed [.test test.card]
      conclude test
      return .null
    passing.rescue fun fault => do
      recover
      fire "fire test.failed" testFailed [.test test.card, .fault fault]
      conclude test
      throw fault

end Interpreter

end Sequential

end FeatureRunner
