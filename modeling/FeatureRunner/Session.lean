import FeatureRunner.Reporting
import FeatureRunner.Suite.Compile
import FeatureRunner.World.Loop

/-!
A session holds a registry, a world, the suites compiled so far and the futures of what was
started. Either a loop is running, and what is started goes on when the session settles, or there
is none, and each run has a loop of its own.
-/

namespace FeatureRunner
open FeatureRunner.Calendar

structure Session where
  registry : Registry
  world : World
  suites : List (String × Suite)
  /-- The tasks of the futures by name, in the order in which the names were first used. -/
  futures : List (String × Nat)

namespace Session

/-- An empty session in which a loop is running or not. -/
def initial (clock : Moment) (looping : Bool) : Session :=
  ⟨.initial, { World.initial clock with looping := looping }, [], []⟩

def suite? (session : Session) (name : String) : Option Suite :=
  (session.suites.find? (·.1 == name)).map (·.2)

def putSuite (session : Session) (name : String) (suite : Suite) : Session :=
  { session with suites := (name, suite) :: session.suites.filter fun entry => entry.1 != name }

/-- Names the task of a future: in place if the name is known, else at the end. -/
def putFuture (name : String) (task : Nat) : List (String × Nat) → List (String × Nat)
  | [] => [(name, task)]
  | (known, old) :: rest =>
    if known == name then (known, task) :: rest else (known, old) :: putFuture name task rest

/-- Makes a call that must not wait. -/
def call (session : Session) (program : Program Value) : Outcome × Session :=
  let (outcome, world) := session.world.perform program id
  (outcome, { session with world := world })

/-- Makes a call that answers a task, and keeps its future under a name. -/
def callForTask (session : Session) (name : String) (program : Program Nat) : Outcome × Session :=
  let (outcome, world) := session.world.perform program .future
  let session := { session with world := world }
  match outcome with
  | .ok (.future task) =>
    (outcome, { session with futures := putFuture name task session.futures })
  | _ => (outcome, session)

/-- Starts a program as a task and keeps its future under a name. -/
def spawn (session : Session) (name : String) (program : Program Value) : Session :=
  let (world, task) := session.world.spawn program.toProcess
  { session with world := world, futures := putFuture name task session.futures }

/-- Runs a program: as a task whose future is kept under a name and answered, or without a loop to
its end. -/
def run (session : Session) (name : String) (program : Program Value) : Outcome × Session :=
  if session.world.looping then
    let session := session.spawn name program
    (.ok (.future (session.world.tasks.length - 1)), session)
  else
    let (outcome, world) := session.world.runLoop program
    (outcome, { session with world := world })

/-- The callable that notes the end of a test. -/
def noteDone : Callable :=
  World.loggingScript "done" (.dict [(.const (.text "done"), .arguments)])

/-- Runs a test and notes its end if that is asked for. Without a loop a fault is then told instead
of raised. -/
def runTest (session : Session) (name : String) (test : Test) (note : Bool) : Outcome × Session :=
  let (outcome, ran) := session.run name test.run
  if !note then (outcome, ran)
  else if ran.world.looping then
    match outcome with
    | .ok (.future task) =>
      (outcome, { ran with world := ran.world.watch task (.notify noteDone) })
    | _ => (outcome, ran)
  else match outcome with
    | .error .cancelled => (outcome, ran)
    | ended => ran.call do
        let _ ← Program.call .notice noteDone (World.noticeArgs ended)
        return .null

/-- Runs until nothing is left to do. -/
def settle (session : Session) : Session :=
  { session with world := session.world.settle }

/-- How each future ended, if it has. -/
def states (session : Session) : List (String × Option Outcome) :=
  session.futures.map fun (name, task) => (name, session.world.outcome? task)

/-- Asks for the cancellation of a future and answers whether it could still be asked for. -/
def cancel (session : Session) (name : String) : Outcome × Session :=
  match session.futures.find? (·.1 == name) with
  | some (_, task) =>
    (.ok (.bool (session.world.outcome? task).isNone),
      { session with world := session.world.cancel task })
  | none => (.error (.fault (.raised .key (some name))), session)

/-- Ends a step of the session: what is begun later is logged in a section of its own. -/
def closeStep (session : Session) : Session :=
  { session with world := { session.world with log := session.world.log.closeSection } }

end Session

end FeatureRunner
