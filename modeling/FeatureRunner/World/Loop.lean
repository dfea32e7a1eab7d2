import FeatureRunner.World

/-!
How the world moves. One step runs one node of the process that is being run, or takes the next
handle of the present turn. A turn is over when its handles are used up; what was enqueued
meanwhile makes the next turn. `settle` runs turns until nothing is left to do, and `runLoop` runs
a task in a loop of its own, which ends two turns after the task.
-/

namespace FeatureRunner.World

/-- Adds what follows the end of a task, which has not come yet. -/
def watch (world : World) (task : Nat) (watcher : Watcher) : World :=
  { world with tasks := world.tasks.modify task fun found =>
      { found with watchers := found.watchers ++ [watcher] } }

/-- What a callable is told when a task has ended. -/
def noticeArgs : Outcome → List Value
  | .ok _ => []
  | .error (.fault fault) => [.fault fault]
  | .error .cancelled => [.cancellation]

/-- Lets a watcher know how its task ended. -/
def alert (outcome : Outcome) (world : World) : Watcher → World
  | .resume task =>
    match world.state? task with
    | some (.awaiting _ next) => world.schedule task (next outcome)
    | _ => world
  | .fulfil task => world.enqueue (.fulfil task)
  | .notify callable => world.enqueue (.notify callable (noticeArgs outcome))

/-- Notes how a task ended. -/
def close (world : World) (task : Nat) (outcome : Outcome) : World :=
  { world with tasks := world.tasks.modify task fun found =>
      { found with state := .done outcome, watchers := [] } }

/-- Ends a task. -/
def finish (world : World) (task : Nat) (outcome : Outcome) : World :=
  (world.watchers task).foldl (alert outcome) (world.close task outcome)

/-- Ends the run of a process. -/
def conclude (world : World) (owner : Owner) (outcome : Outcome) : World :=
  match owner with
  | .task number => world.finish number outcome
  | .caller => { world with answer := some outcome }

/-- Leaves a process at a place where it waits. A call from outside every task cannot wait, and is
cancelled there. -/
def suspend (world : World) (owner : Owner) (leave : Nat → World) : World :=
  match owner with
  | .task number => leave number
  | .caller => { world with answer := some (.error .cancelled) }

/-- Goes on with a process. -/
def proceed (world : World) (owner : Owner) (process : Process) : World :=
  { world with current := some (owner, process) }

/-- Runs one node of a process. Nobody waits for a task that does not exist. -/
def runNode (world : World) (owner : Owner) : Process → World
  | .done outcome => world.conclude owner outcome
  | .ask request next =>
    let (answer, world) := world.respond request
    world.proceed owner (next answer)
  | .call role callable args next =>
    world.proceed owner ((callable.process role args).andThen next)
  | .leave _ _ rest => world.proceed owner rest
  | .add _ name body next =>
    let (answer, world) := world.addTask name body
    world.proceed owner (next answer)
  | .await task next =>
    if world.tasks.length ≤ task then
      world.proceed owner (next (.error (.fault .resultNotSet)))
    else match world.outcome? task with
      | some outcome => world.proceed owner (next outcome)
      | none => world.suspend owner fun number =>
        (world.setState number (.awaiting task next)).watch task (.resume number)
  | .join task rest =>
    if world.tasks.length ≤ task then world.proceed owner rest
    else world.suspend owner fun number =>
      let waiting := world.setState number (.joining task rest)
      if (world.outcome? task).isSome then waiting.enqueue (.fulfil number)
      else waiting.watch task (.fulfil number)
  | .wait gate rest =>
    if world.openGates.contains gate then world.proceed owner rest
    else world.suspend owner fun number => world.setState number (.waiting gate rest)
  | .yield rest => world.suspend owner fun number => world.schedule number rest

/-- Begins a task's turn. A task that is to be cancelled ends instead. -/
def resume (world : World) (number : Nat) : World :=
  match world.tasks[number]? with
  | some ⟨.scheduled rest, cancelRequested, _⟩ =>
    if cancelRequested then world.finish number (.error .cancelled)
    else world.proceed (.task number) rest
  | _ => world

/-- Takes a handle from the queue. -/
def handle (world : World) : Handle → World
  | .resume number => world.resume number
  | .fulfil number =>
    match world.state? number with
    | some (.joining _ rest) => world.schedule number rest
    | _ => world
  | .notify callable args => world.proceed .caller (.call .notice callable args .done)

/-- One step of the present turn, unless the turn is over. -/
def step? (world : World) : Option World :=
  match world.current, world.ready with
  | some (owner, process), _ => some ({ world with current := none }.runNode owner process)
  | none, next :: rest => some ({ world with ready := rest }.handle next)
  | none, [] => none

/-- Runs the present turn to its end, in at most `bound` steps. -/
def runTurn : Nat → World → World
  | 0, world => world
  | bound + 1, world =>
    match world.step? with
    | some next => runTurn bound next
    | none => world

/-- Begins the next turn. -/
def nextTurn (world : World) : World :=
  { world with ready := world.ready ++ world.soon, soon := [] }

/-- A bound on the steps of a turn and on the number of turns. Only a run without an end needs
more. -/
def limit : Nat := 1000000

/-- Runs turns until nothing is left to do, at most `bound` of them. -/
def settleWithin : Nat → World → World
  | 0, world => world
  | bound + 1, world =>
    if world.soon.isEmpty then world else settleWithin bound (world.nextTurn.runTurn limit)

def settle (world : World) : World :=
  world.settleWithin limit

/-- Runs turns until a task has ended, at most `bound` of them. -/
def runUntil (task : Nat) : Nat → World → World
  | 0, world => world
  | bound + 1, world =>
    if (world.outcome? task).isSome || world.soon.isEmpty then world
    else runUntil task bound (world.nextTurn.runTurn limit)

/-- Ends every task that has not ended. -/
def cancelAll (world : World) : World :=
  { world with
    tasks := world.tasks.map fun task =>
      match task.state with
      | .done _ => task
      | _ => { task with state := .done (.error .cancelled), watchers := [] }
    soon := [] }

/-- Runs a program as a task in a loop of its own. The loop goes on for one turn after the one in
which the task ends; then what is unfinished is cancelled. -/
def runLoop (world : World) (program : Program Value) : Outcome × World :=
  let (world, task) := { world with looping := true }.spawn program.toProcess
  let ended := (world.runUntil task limit).nextTurn.runTurn limit
  let closed := { ended.cancelAll with looping := false }
  ((closed.outcome? task).getD (.error .cancelled), closed)

/-- Makes a call from outside every task, which must not wait. -/
def perform (world : World) {α : Type} (program : Program α) (answer : α → Value) :
    Outcome × World :=
  let process := program fun outcome => .done (outcome.map answer)
  let ended := { world with current := some (.caller, process), answer := none }.runTurn limit
  (ended.answer.getD (.error .cancelled), ended)

/-- Asks for the cancellation of a task. A task that awaits another passes the request on to it;
one that waits for anything else is woken to end. -/
def cancelWithin : Nat → Nat → World → World
  | 0, _, world => world
  | depth + 1, number, world =>
    match world.tasks[number]? with
    | none => world
    | some found =>
      let mark := { world with
        tasks := world.tasks.modify number ({ · with cancelRequested := true }) }
      match found.state with
      | .done _ => world
      | .awaiting inner _ => cancelWithin depth inner world
      | .joining _ rest | .waiting _ rest => mark.schedule number rest
      | .scheduled _ => mark

def cancel (world : World) (number : Nat) : World :=
  cancelWithin (world.tasks.length + 1) number world

/-- Schedules a task if it waits for a gate. -/
def release (gate : String) (world : World) (number : Nat) : World :=
  match world.state? number with
  | some (.waiting waited rest) =>
    if waited == gate then world.schedule number rest else world
  | _ => world

/-- Opens a gate and schedules the tasks that wait for it. -/
def openGate (world : World) (gate : String) : World :=
  let opened := { world with openGates := gate :: world.openGates }
  (List.range world.tasks.length).foldl (release gate) opened

end FeatureRunner.World
