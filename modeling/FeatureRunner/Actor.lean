import FeatureRunner.Dispatcher
import FeatureRunner.Recorder
import FeatureRunner.Text.Word
import FeatureRunner.Value.Json

/-!
The actor through which step bodies act. Every dispatch becomes three tasks of the recorder: the
action under a line that names it with its arguments, the news of its success, and its result.
-/

namespace FeatureRunner

/-- The names of the events of a dispatch. -/
def stepStarted : String := "step.started"
def stepPassed : String := "step.passed"
def stepFailed : String := "step.failed"

namespace Actor

/-- The trace line of a dispatch: its name, and its arguments if there are any. -/
def line (name : String) (args : List Value) : Except Fault String := do
  if args.isEmpty then return name
  else return name ++ ": " ++ (← humanizeArgs args)

/-- What listeners are told about a dispatch. -/
def stepRecord (name : String) (args : List Value) : Value :=
  .record [("name", .text name), ("args", .list args)]

/-- Performs an action and tells the listeners if it fails. -/
def performStep (step : Value) (action : Program Value) : Program Value :=
  action.rescue fun fault => do
    emitFor .actor stepFailed [step, .fault fault]
    Program.throw fault

/-- Dispatches an action on someone's behalf and answers the task that will have its result. -/
def dispatch (role : Role) (name : String) (args : List Value) (action : Program Value) :
    Program Nat := do
  let line ← Program.ofExcept (line name args)
  let step := stepRecord name args
  emitFor .actor stepStarted [step]
  let performed ← Program.addFor role line (performStep step action)
  let _ ← Program.addFor role "step passed" (do
    emitFor .actor stepPassed [step]
    return .null)
  Program.addFor role "return result" (Recorder.resultOf performed)

/-- Adds to the total of an instance, which takes one argument. -/
def count (instanceNumber : Nat) : List Value → Program Value
  | [amount] => do Program.ofExcept (← Program.ask (.count instanceNumber amount))
  | [] => Program.throw (.missingArguments "Counter.add" false ["n"])
  | args => Program.throw (.surplusArguments "Counter.add" 2 2 (args.length + 1))

/-- Calls a method of a helper. -/
def callMethod (method : Method) (args : List Value) : Program Value :=
  match method with
  | .callable callable => Program.call .method callable args
  | .echo => do
    Program.log (.record [("echo", .list args)])
    return .int args.length
  | .count instanceNumber => count instanceNumber args

/-- The method of that name of the first helper that has one; only identifiers name methods. -/
def findMethod (name : String) : Program (Option Method) :=
  if Text.isIdentifier name then Program.ask (.method name) else pure none

/-- Performs a method dispatch: only a helper with a method of that name will do. -/
def performMethod (name : String) (args : List Value) : Program Value := do
  match ← findMethod name with
  | some method => callMethod method args
  | none => Program.throw (.helperNotFound name)

/-- Performs a named action: by the method of that name, or else by the method that takes any
action, which is given the name first. -/
def performAction (action : Value) (args : List Value) : Program Value := do
  match action with
  | .text name =>
    match ← findMethod name with
    | some method => callMethod method args
    | none =>
      match ← findMethod "do" with
      | some method => callMethod method (action :: args)
      | none => Program.throw (.helperNotFound name)
  | other => Program.throw (.missingMember other.typeName "isidentifier")

/-- Dispatches a named action, the first of the values, with the others as its arguments. -/
def actFor (role : Role) : List Value → Program Nat
  | [] => Program.throw
    (.misuse "Actor.do() missing 1 required positional argument: 'action'")
  | action :: args => dispatch role "do" (action :: args) (performAction action args)

def act (values : List Value) : Program Nat :=
  actFor .outside values

/-- The name of a member of the actor that dispatches; names that begin with an underscore are
private. -/
def methodName (method : String) : Except Fault String :=
  if method.startsWith "_" then .error (.privateName method) else .ok method

/-- Dispatches by a member: `do` takes a named action, and any other name is a method. -/
def invokeFor (role : Role) (method : String) (args : List Value) : Program Nat := do
  if method == "do" then actFor role args
  else
    let method ← Program.ofExcept (methodName method)
    dispatch role method args (performMethod method args)

def invoke (method : String) (args : List Value) : Program Nat :=
  invokeFor .outside method args

end Actor

end FeatureRunner
