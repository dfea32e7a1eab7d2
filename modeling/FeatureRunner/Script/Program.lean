import FeatureRunner.Actor
import FeatureRunner.Number.Numeral
import FeatureRunner.Text.Blank

/-!
The program that a script is: its terms are evaluated when their action runs, its actions run in
order, and its result is the value that it gives, or null.
-/

namespace FeatureRunner
open FeatureRunner.Number

/-- A map with text keys and text values as a value. -/
def TextMap.value (map : TextMap) : Value :=
  .dict (map.map fun entry => (.text entry.1, .text entry.2))

namespace Value

/-- A value as a whole number: numbers lose their fraction, and texts are read. -/
def toInt : Value → Except Fault Int
  | bool value => .ok (if value then 1 else 0)
  | int value => .ok value
  | float value =>
    match value.quotient? with
    | some (dividend, divisor) => .ok (dividend.tdiv divisor)
    | none => .error (.raised .value (some "cannot convert float NaN to integer"))
  | text value =>
    let digits := Text.strip value.toList
    match readInt? digits with
    | some whole => if digitBound < digitCount digits then .error (.digitLimit (digitCount digits))
      else .ok whole
    | none => .error (.raised .value
        (some ("invalid literal for int() with base 10: " ++ Text.quoted value)))
  | value => .error (.misuse ("int() argument must be a string, a bytes-like object or a real " ++
      "number, not '" ++ value.typeName ++ "'"))

/-- The sum of two numbers. -/
def plus (a b : Value) : Except Fault Value :=
  match a.number?, b.number? with
  | some (.inl x), some (.inl y) => .ok (.int (x + y))
  | some x, some y => .ok (.float ((asReal x).add (asReal y)))
  | _, _ => .error (.misuse ("unsupported operand type(s) for +: '" ++ a.typeName ++ "' and '" ++
      b.typeName ++ "'"))
where
  asReal : Int ⊕ Binary64 → Binary64
    | .inl whole => .ofInt whole
    | .inr real => real

/-- A view of a table by its name. -/
def tableView (view : String) : Value → Except Fault Value
  | table content =>
    if view == "raw" then .ok (.list (content.raw.map ofTexts))
    else if view == "hashes" then .ok (.list (content.hashes.map TextMap.value))
    else if view == "rows_hash" then
      match content.rowsHash? with
      | some map => .ok map.value
      | none => .error .tableShape
    else .error (.missingMember "DataTable" view)
  | value => .error (.missingMember value.typeName view)

end Value

namespace Term

mutual

/-- The value of a term among the arguments of its script. -/
def eval (args : List Value) : Term → Program Value
  | const value => pure value
  | argument index => pure (args.getD index .null)
  | arguments => pure (.list args)
  | valueOf name => do return (← Program.ask (.valueOf name)).getD .null
  | view name index => Program.ofExcept ((args.getD index .null).tableView name)
  | list items => do return .list (← evalAll args items)
  | tuple items => do return .tuple (← evalAll args items)
  | dict entries => do return .dict (Value.distinctEntries (← evalEntries args entries))

def evalAll (args : List Value) : List Term → Program (List Value)
  | [] => pure []
  | term :: rest => do
    let value ← eval args term
    return value :: (← evalAll args rest)

def evalEntries (args : List Value) : List (Term × Term) → Program (List (Value × Value))
  | [] => pure []
  | (key, term) :: rest => do
    let key ← eval args key
    let value ← eval args term
    return (key, value) :: (← evalEntries args rest)

end

end Term

/-- Waits for a dispatched action and logs its result in the section in which the wait began. -/
def awaitLogged (task : Nat) : Program Unit := do
  let begun ← Program.ask .logSection
  let result ← Program.await task
  Program.ask (.note begun (.record [("awaited", result)]))

/-- What a recorder task does: nothing without a callable. -/
def callTask : Option Callable → Program Value
  | some callable => Program.call .task callable []
  | none => pure .null

namespace Action

/-- Whether an action can wait. -/
def suspends : Action → Bool
  | awaitAct _ | awaitInvoke .. | wait _ | yield _ => true
  | _ => false

/-- The program of an action of a script that is called in a role; it answers the value that ends
the script, if it ends it. -/
def program (role : Role) (args : List Value) : Action → Program (Option Value)
  | log term => do
    Program.log (← term.eval args)
    return none
  | give term => do return some (← term.eval args)
  | raise kind message => Program.throw (.raised kind message)
  | act terms => do
    let _ ← Actor.actFor role (← Term.evalAll args terms)
    return none
  | invoke method terms => do
    let _ ← Actor.invokeFor role method (← Term.evalAll args terms)
    return none
  | awaitAct terms => do
    awaitLogged (← Actor.actFor role (← Term.evalAll args terms))
    return none
  | awaitInvoke method terms => do
    awaitLogged (← Actor.invokeFor role method (← Term.evalAll args terms))
    return none
  | wait gate => do
    Program.wait gate
    return none
  | yield times => do
    Program.yield times
    return none
  | advance microseconds => do
    Program.ask (.advance microseconds)
    return none
  | set name term => do
    Program.ask (.assign name (← term.eval args))
    return none
  | increase name term => do
    let amount ← term.eval args
    let whole ← Program.ofExcept amount.toInt
    let known := (← Program.ask (.valueOf name)).getD (.int 0)
    Program.ask (.assign name (← Program.ofExcept (known.plus (.int whole))))
    return none
  | expect name term => do
    let wanted ← term.eval args
    let found := (← Program.ask (.valueOf name)).getD .null
    if found.same wanted then return none
    else Program.throw (.raised .assertion
      (some ("expected " ++ wanted.display ++ ", got " ++ found.display)))
  | add name task => do
    let _ ← Program.addFor role name (callTask task)
    return none
  | subscribe event listener => do
    Program.ask (.subscribe event (.scripted listener))
    return none
  | unsubscribe event listener => do
    Program.ask (.unsubscribe event (.scripted listener))
    return none
  | emit event terms => do
    emitFor role event (← Term.evalAll args terms)
    return none
  | recorder call => do
    Recorder.callFor role call
    return none

end Action

/-- Runs actions up to the first that ends the script. -/
def runActions (role : Role) (args : List Value) : List Action → Program Value
  | [] => pure .null
  | action :: rest => do
    match ← action.program role args with
    | some result => return result
    | none => runActions role args rest

namespace Callable

/-- What a call of a callable in a role does. Only a callable that suspends can wait: for any other
the actions that would are left out. -/
def program (role : Role) (args : List Value) : Callable → Program Value
  | script name signature suspends _ _ actions => do
    runActions role (← Program.ofExcept (signature.bind name args))
      (if suspends then actions else actions.filter (!·.suspends))
  | builtin kind => Program.ofExcept (kind.call args)

def process (role : Role) (args : List Value) (callable : Callable) : Process :=
  (callable.program role args).toProcess

end Callable

end FeatureRunner
