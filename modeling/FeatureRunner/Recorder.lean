import FeatureRunner.Process

/-!
The recorder owns one chain of tasks. Each task of the chain runs after all tasks added before it
have ended, and writes its name to the trace when it begins; a failed task fails those after it
without running them. The drain waits for the whole chain, and `recover` begins a new chain behind
the old one.
-/

namespace FeatureRunner

/-- The state of the recorder. Every start begins a session of its own number, and only tasks of
the running session write to its trace. -/
structure Recorder where
  running : Bool
  session : Nat
  trace : List String
  tail : Option Nat

namespace Recorder

/-- A recorder that was never started. -/
def initial : Recorder := ⟨false, 0, [], none⟩

/-- Begins a session with an empty trace and an empty chain. -/
def start (recorder : Recorder) : Recorder :=
  ⟨true, recorder.session + 1, [], none⟩

def startUnlessRunning (recorder : Recorder) : Recorder :=
  if recorder.running then recorder else recorder.start

/-- Ends writing to the trace; the tasks go on. -/
def stop (recorder : Recorder) : Recorder :=
  { recorder with running := false }

/-- Writes a line on behalf of a session. -/
def record (recorder : Recorder) (session : Nat) (line : String) : Recorder :=
  if recorder.running && session == recorder.session then
    { recorder with trace := recorder.trace ++ [line] }
  else recorder

/-- The trace as one text. -/
def scheduled (recorder : Recorder) : String :=
  "\n".intercalate recorder.trace

/-- Ends as a task ended that is known to have. -/
def resultOf (task : Nat) : Program Value := do
  match ← Program.ask (.outcome task) with
  | some outcome => Program.ofOutcome outcome
  | none => Program.throw .resultNotSet

/-- Ends as a task ends, waiting for it if necessary. -/
def settled (task : Nat) : Program Value := do
  match ← Program.ask (.outcome task) with
  | some outcome => Program.ofOutcome outcome
  | none =>
    Program.join task
    resultOf task

/-- Waits for the task before this one, which passes its failure on. -/
def awaitPrevious : Option Nat → Program Unit
  | none => pure ()
  | some previous => do
    let _ ← settled previous

/-- A task of the chain. -/
def task (session : Nat) (previous : Option Nat) (name : String) (body : Program Value) :
    Program Value := do
  awaitPrevious previous
  Program.ask (.record session name)
  body.rescue fun fault => do
    Program.ask (.record session ("error: " ++ fault.message))
    Program.throw fault

/-- What waiting for a set of tasks answers. -/
def waitResult : Value :=
  .tuple [.other "set", .other "set"]

/-- The task that stands for an abandoned chain: it ends well when the chain has ended. -/
def abandoned (previous : Nat) : Program Value := do
  Program.join previous
  return waitResult

/-- Waits for the chain with the given last task and ends as that task does. -/
def drain : Option Nat → Program Value
  | none => pure .null
  | some tail => settled tail

/-- Waits for the chain as it is now. -/
def drainNow : Program Unit := do
  let _ ← drain (← Program.ask .tail)

/-- Makes a call of the recorder on someone's behalf. -/
def callFor (role : Role) (call : RecorderCall) : Program Unit := do
  Program.ofExcept (← Program.ask (.recorder role call))

def call (call : RecorderCall) : Program Unit :=
  callFor .outside call

end Recorder

end FeatureRunner
