import FeatureRunner.Calendar.Moment
import FeatureRunner.Container
import FeatureRunner.Dispatcher
import FeatureRunner.EffectLog
import FeatureRunner.Recorder
import FeatureRunner.Results
import FeatureRunner.Script.Program

/-!
The world that tasks act on: the recorder, the dispatcher, the container, the collected results,
the clock, the log of effects and the variables, and the tasks themselves with the queue of what is
to be done next.
-/

namespace FeatureRunner
open FeatureRunner.Calendar

/-- Where a task stands. -/
inductive TaskState
  /-- It goes on when its turn in the queue comes. -/
  | scheduled (rest : Process)
  /-- It goes on with the outcome of another task. -/
  | awaiting (task : Nat) (next : Outcome → Process)
  /-- It goes on some time after another task has ended. -/
  | joining (task : Nat) (rest : Process)
  /-- It goes on when a gate is open. -/
  | waiting (gate : String) (rest : Process)
  | done (outcome : Outcome)

/-- What follows the end of a task. -/
inductive Watcher
  /-- A task that awaits it goes on. -/
  | resume (task : Nat)
  /-- A task that joins it is scheduled. -/
  | fulfil (task : Nat)
  /-- A callable is told. -/
  | notify (callable : Callable)

/-- How a task ended that has. -/
def TaskState.outcome? : TaskState → Option Outcome
  | done outcome => some outcome
  | _ => none

structure Task where
  state : TaskState
  cancelRequested : Bool
  /-- What follows the end of the task, in order. -/
  watchers : List Watcher

/-- An entry of the queue. -/
inductive Handle
  | resume (task : Nat)
  | fulfil (task : Nat)
  | notify (callable : Callable) (args : List Value)

/-- Whose process is being run: a task's, or that of a call from outside every task. -/
inductive Owner
  | task (number : Nat)
  | caller
  deriving DecidableEq, Repr

structure World where
  recorder : Recorder
  dispatcher : Dispatcher
  container : Container
  results : Results
  clock : Moment
  /-- The effects log. -/
  log : EffectLog
  assigned : List (String × Value)
  openGates : List String
  /-- The modules that class paths can name. -/
  modules : List HelperModule
  /-- The methods of the ready helpers, by number. -/
  readyHelpers : List (List (String × Callable))
  /-- The callables of the listeners that are scripted. -/
  listeners : List (String × Callable)
  tasks : List Task
  /-- The process that is being run. -/
  current : Option (Owner × Process)
  /-- The rest of the present turn of the queue. -/
  ready : List Handle
  /-- The next turn of the queue. -/
  soon : List Handle
  /-- Whether there is a loop that runs tasks. -/
  looping : Bool
  /-- How the last call from outside ended. -/
  answer : Option Outcome

namespace World

/-- Nothing recorded, nobody subscribed, no helpers and no tasks. -/
def initial (clock : Moment) : World :=
  { recorder := .initial, dispatcher := .initial, container := .initial, results := .initial
    clock := clock, log := .empty, assigned := [], openGates := [], modules := []
    readyHelpers := [], listeners := [], tasks := [], current := none, ready := [], soon := []
    looping := false, answer := none }

/-- Where a task stands. -/
def state? (world : World) (task : Nat) : Option TaskState :=
  (world.tasks[task]?).map Task.state

/-- What follows the end of a task. -/
def watchers (world : World) (task : Nat) : List Watcher :=
  ((world.tasks[task]?).map Task.watchers).getD []

/-- How a task ended, if it has. -/
def outcome? (world : World) (task : Nat) : Option Outcome :=
  (world.state? task).bind TaskState.outcome?

def setState (world : World) (task : Nat) (state : TaskState) : World :=
  { world with tasks := world.tasks.modify task ({ · with state := state }) }

/-- Puts a handle at the end of the queue. -/
def enqueue (world : World) (handle : Handle) : World :=
  { world with soon := world.soon ++ [handle] }

/-- Lets a task go on with a process when its turn comes. -/
def schedule (world : World) (task : Nat) (rest : Process) : World :=
  (world.setState task (.scheduled rest)).enqueue (.resume task)

/-- A new task, which begins when its turn comes. -/
def spawn (world : World) (process : Process) : World × Nat :=
  ({ world with
      tasks := world.tasks ++ [⟨.scheduled process, false, []⟩]
      soon := world.soon ++ [.resume world.tasks.length] },
    world.tasks.length)

/-- A callable that logs a mark with its arguments. -/
def loggingScript (name : String) (entry : Term) : Callable :=
  .script name ⟨[], 0, true, []⟩ false false 0 [.log entry]

/-- What a subscription calls. A listener without a script logs its name and its arguments. -/
def subscriber (world : World) : Listener → Subscriber
  | .collector event => .collector event
  | .scripted name =>
    match world.listeners.find? (·.1 == name) with
    | some entry => .callable entry.2
    | none => .callable (loggingScript name (.list [.const (.text name), .arguments]))

def valueOf? (world : World) (name : String) : Option Value :=
  (world.assigned.find? (·.1 == name)).map (·.2)

def assign (world : World) (name : String) (value : Value) : World :=
  { world with
    assigned := (name, value) :: world.assigned.filter fun entry => entry.1 != name }

/-- The present as texts in results have it. -/
def now (world : World) : String :=
  world.clock.text

/-- Lets later tasks of the recorder begin although an earlier one fails: behind a chain that has
ended a new one begins, and else a task stands for the chain that fails with none of its faults. -/
def recover (world : World) : Except Fault Unit × World :=
  let detached := { world with recorder := { world.recorder with tail := none } }
  match world.recorder.tail with
  | none => (.ok (), detached)
  | some previous =>
    if (world.outcome? previous).isSome then (.ok (), detached)
    else if !world.looping then (.error .noRunningLoop, world)
    else
      let (world, task) := world.spawn (Recorder.abandoned previous).toProcess
      (.ok (), { world with recorder := { world.recorder with tail := some task } })

/-- Adds a task to the recorder's chain. -/
def addTask (world : World) (name : String) (body : Process) : Except Fault Nat × World :=
  if !world.looping then (.error .noRunningLoop, world)
  else
    let recorder := world.recorder
    let (world, task) := world.spawn
      (Recorder.task recorder.session recorder.tail name (.ofProcess body)).toProcess
    (.ok task, { world with recorder := { recorder with tail := some task } })

/-- Does a call of the recorder. -/
def operate (world : World) : RecorderCall → Except Fault Unit × World
  | .start => (.ok (), { world with recorder := world.recorder.start })
  | .stop => (.ok (), { world with recorder := world.recorder.stop })
  | .startUnlessRunning => (.ok (), { world with recorder := world.recorder.startUnlessRunning })
  | .recover => world.recover

/-- Adds to the total of an instance and answers the new total. -/
def addToTotal (world : World) (instanceNumber : Nat) (amount : Value) :
    Except Fault Value × World :=
  match (world.container.totals.getD instanceNumber .null).plus amount with
  | .ok total =>
    (.ok total,
      { world with container := { world.container with
          totals := world.container.totals.set instanceNumber total } })
  | .error fault => (.error fault, world)

/-- Answers a request. -/
def respond (world : World) : (request : Request) → request.Answer × World
  | .logSection => (world.log.presentNumber, world)
  | .note number value => ((), { world with log := world.log.note number value })
  | .advance microseconds => ((), { world with clock := world.clock.advance microseconds })
  | .valueOf name => (world.valueOf? name, world)
  | .assign name value => ((), world.assign name value)
  | .subscribe event listener =>
    ((), { world with dispatcher := world.dispatcher.on event listener })
  | .unsubscribe event listener =>
    ((), { world with dispatcher := world.dispatcher.off event listener })
  | .subscribers _ event _ => ((world.dispatcher.listeners event).map world.subscriber, world)
  | .recorder _ call => world.operate call
  | .record session line =>
    ((), { world with recorder := world.recorder.record session line })
  | .tail => (world.recorder.tail, world)
  | .outcome task => (world.outcome? task, world)
  | .method name => (world.container.findMethod? world.readyHelpers name, world)
  | .count instanceNumber amount => world.addToTotal instanceNumber amount
  | .collect event args =>
    let (answer, results) := world.results.collect world.now event args
    (answer, { world with results := results })

end World

end FeatureRunner
