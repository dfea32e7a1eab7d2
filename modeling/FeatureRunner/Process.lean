import FeatureRunner.Script

/-!
What a task does next, as a tree: a node is one request to the session around it, a call, or a
place where the task gives way, and its branches say how the task goes on with each answer.

A tree names the callables that it calls and does not unfold them, so a callable may lead to itself
through an event or an action and every tree is still finite. Calls, and what acts on the recorder
or the dispatcher, show on whose behalf they are made.

`Program` is the way to write trees: a computation with a result that passes on failures. Handlers
see faults and never a cancellation.
-/

namespace FeatureRunner

/-- How a computation ended. -/
abbrev Outcome := Except Failure Value

/-- On whose behalf something is done: the run of a test or suite itself, what a callable is called
as, the actor, or what calls from outside every task. -/
inductive Role
  | run
  | step
  | method
  | task
  | listener
  | notice
  | actor
  | outside
  deriving DecidableEq, Repr

/-- The events that a report is collected from. -/
inductive CollectorEvent
  | suiteBefore
  | suiteAfter
  | testStarted
  | testPassed
  | testFailed
  | testSkipped
  | testFinished
  deriving DecidableEq, Repr

/-- What is subscribed to an event. -/
inductive Listener
  | scripted (name : String)
  | collector (event : CollectorEvent)
  deriving DecidableEq, Repr

/-- A listener as it is called. -/
inductive Subscriber
  | callable (callable : Callable)
  | collector (event : CollectorEvent)

/-- A method that a helper provides. -/
inductive Method
  | callable (callable : Callable)
  /-- Logs its arguments and answers their number. -/
  | echo
  /-- Adds to the total of an instance. -/
  | count (instanceNumber : Nat)

/-- What a task asks of the session around it. Each request is answered at once. -/
inductive Request
  /-- The number of the present section of the effects log. -/
  | logSection
  /-- Adds a value to a section of the effects log. -/
  | note (logSection : Nat) (value : Value)
  | advance (microseconds : Int)
  | valueOf (name : String)
  | assign (name : String) (value : Value)
  | subscribe (event : String) (listener : Listener)
  | unsubscribe (event : String) (listener : Listener)
  /-- Those whom an emission of an event with arguments calls. -/
  | subscribers (role : Role) (event : String) (args : List Value)
  | recorder (role : Role) (call : RecorderCall)
  /-- Writes a trace line on behalf of a session. -/
  | record (session : Nat) (line : String)
  /-- The last task of the recorder's chain. -/
  | tail
  /-- How a task ended, if it has. -/
  | outcome (task : Nat)
  /-- The first helper's method of a name. -/
  | method (name : String)
  /-- Adds to the total of an instance. -/
  | count (instanceNumber : Nat) (amount : Value)
  | collect (event : CollectorEvent) (args : List Value)

/-- What a request is answered with. -/
def Request.Answer : Request → Type
  | note .. | advance _ | assign .. | subscribe .. | unsubscribe .. | record .. => Unit
  | valueOf _ => Option Value
  | subscribers .. => List Subscriber
  | recorder .. | collect .. => Except Fault Unit
  | logSection => Nat
  | tail => Option Nat
  | outcome _ => Option Outcome
  | method _ => Option Method
  | count .. => Except Fault Value

/-- What a task does next. -/
inductive Process
  | done (outcome : Outcome)
  | ask (request : Request) (next : request.Answer → Process)
  | call (role : Role) (callable : Callable) (args : List Value) (next : Outcome → Process)
  /-- A call has come back. Nothing is done here: it shows how the call ended. -/
  | leave (role : Role) (outcome : Outcome) (rest : Process)
  /-- Adds a task to the recorder's chain and goes on with its number. -/
  | add (role : Role) (name : String) (body : Process) (next : Except Fault Nat → Process)
  /-- Goes on when another task has ended, with its outcome. -/
  | await (task : Nat) (next : Outcome → Process)
  /-- Goes on when another task has ended, whatever its outcome, and never before giving way. -/
  | join (task : Nat) (next : Process)
  /-- Goes on when a gate is open. -/
  | wait (gate : String) (next : Process)
  /-- Gives way once. -/
  | yield (next : Process)

/-- A process and what follows its end. -/
def Process.andThen : Process → (Outcome → Process) → Process
  | done outcome, next => next outcome
  | ask request branch, next => .ask request fun answer => (branch answer).andThen next
  | call role callable args branch, next =>
    .call role callable args fun outcome => (branch outcome).andThen next
  | leave role outcome rest, next => .leave role outcome (rest.andThen next)
  | add role name body branch, next =>
    .add role name body fun answer => (branch answer).andThen next
  | await task branch, next => .await task fun outcome => (branch outcome).andThen next
  | join task rest, next => .join task (rest.andThen next)
  | wait gate rest, next => .wait gate (rest.andThen next)
  | yield rest, next => .yield (rest.andThen next)

/-- A computation with a result, as the process that it makes of what follows. -/
def Program (α : Type) : Type :=
  (Except Failure α → Process) → Process

namespace Program

instance : Monad Program where
  pure value := fun next => next (.ok value)
  bind program further := fun next => program fun
    | .ok value => further value next
    | .error failure => next (.error failure)

/-- Ends with a fault. -/
def throw {α : Type} (fault : Fault) : Program α :=
  fun next => next (.error (.fault fault))

/-- Goes on with a handler when a fault arises. -/
def rescue {α : Type} (program : Program α) (handler : Fault → Program α) : Program α :=
  fun next => program fun
    | .error (.fault fault) => handler fault next
    | outcome => next outcome

def ofOutcome {α : Type} (outcome : Except Failure α) : Program α :=
  fun next => next outcome

def ofExcept {α : Type} : Except Fault α → Program α
  | .ok value => pure value
  | .error fault => throw fault

def ask (request : Request) : Program request.Answer :=
  fun next => .ask request fun answer => next (.ok answer)

/-- A program that is the whole of a call. -/
def within (role : Role) (program : Program Value) : Program Value :=
  fun next => program fun outcome => .leave role outcome (next outcome)

def call (role : Role) (callable : Callable) (args : List Value) : Program Value :=
  within role fun next => .call role callable args next

/-- Waits for a task and ends as it ended. -/
def await (task : Nat) : Program Value :=
  fun next => .await task next

/-- Waits for a task whatever its outcome. -/
def join (task : Nat) : Program Unit :=
  fun next => .join task (next (.ok ()))

def wait (gate : String) : Program Unit :=
  fun next => .wait gate (next (.ok ()))

/-- Gives way a number of times. -/
def yield : Nat → Program Unit
  | 0 => pure ()
  | times + 1 => fun next => .yield (yield times next)

/-- The process of a whole task. -/
def toProcess (program : Program Value) : Process :=
  program .done

def ofProcess (process : Process) : Program Value :=
  fun next => process.andThen next

/-- Adds a task to the recorder's chain on someone's behalf and answers its number. -/
def addFor (role : Role) (name : String) (body : Program Value) : Program Nat :=
  fun next => .add role name body.toProcess fun
    | .ok task => next (.ok task)
    | .error fault => next (.error (.fault fault))

def add (name : String) (body : Program Value) : Program Nat :=
  addFor .outside name body

/-- Adds a value to the effects log. -/
def log (value : Value) : Program Unit := do
  ask (.note (← ask .logSection) value)

end Program

end FeatureRunner
