import FeatureRunner.Value.Display

/-!
Scripted callables: step bodies, recorder tasks, listeners and helper methods described as data. A
script has a signature and a list of actions; its terms are values with places for its arguments
and for the variables of the session.
-/

namespace FeatureRunner

/-- A value with places that are filled when the action that holds it runs. -/
inductive Term
  | const (value : Value)
  /-- The argument with a number, or null if there are fewer. -/
  | argument (index : Nat)
  /-- The list of all arguments. -/
  | arguments
  /-- A variable, or null if it is unset. -/
  | valueOf (name : String)
  /-- A view of the table that an argument is. -/
  | view (name : String) (index : Nat)
  | list (items : List Term)
  | tuple (items : List Term)
  | dict (entries : List (Term × Term))
  deriving Inhabited

/-- The parameters of a callable. -/
structure Signature where
  params : List String
  /-- How many of them have no default. -/
  required : Nat
  /-- Whether further positional arguments are taken. -/
  variadic : Bool
  /-- Parameters without a default that can only be given by name. -/
  requiredNames : List String

/-- Callables that are not scripts. -/
inductive Builtin
  /-- The largest of its arguments; it shows no signature. -/
  | largest
  /-- Adds its argument to a list that nobody sees. -/
  | append
  /-- Empties that list. -/
  | clear
  deriving DecidableEq, Repr

def Builtin.name : Builtin → String
  | largest => "max"
  | append => "append"
  | clear => "clear"

/-- The calls on the recorder that a script makes. -/
inductive RecorderCall
  | start
  | stop
  | startUnlessRunning
  | recover
  deriving DecidableEq, Repr

mutual

/-- One action of a script. -/
inductive Action
  /-- Adds a value to the effects log. -/
  | log (term : Term)
  /-- Ends the script with a value. -/
  | give (term : Term)
  | raise (kind : ErrorKind) (message : Option String)
  /-- Dispatches a named action and drops its future. -/
  | act (terms : List Term)
  /-- Dispatches by method and drops the future. -/
  | invoke (method : String) (terms : List Term)
  /-- Dispatches, awaits the future and logs its result. -/
  | awaitAct (terms : List Term)
  | awaitInvoke (method : String) (terms : List Term)
  /-- Waits until a gate is open. -/
  | wait (gate : String)
  /-- Gives way to the other tasks a number of times. -/
  | yield (times : Nat)
  /-- Moves the clock by microseconds. -/
  | advance (microseconds : Int)
  | set (name : String) (term : Term)
  /-- Adds a whole number to a variable, which counts from 0. -/
  | increase (name : String) (term : Term)
  /-- Fails unless a variable has a value. -/
  | expect (name : String) (term : Term)
  /-- Adds a task to the recorder. -/
  | add (name : String) (task : Option Callable)
  | subscribe (event listener : String)
  | unsubscribe (event listener : String)
  | emit (event : String) (terms : List Term)
  | recorder (call : RecorderCall)

/-- Something that can be called. -/
inductive Callable
  | script (name : String) (signature : Signature) (suspends nameless : Bool) (line : Nat)
      (actions : List Action)
  | builtin (builtin : Builtin)

end

instance : Inhabited Callable := ⟨.builtin .clear⟩

namespace Signature

/-- The arguments as a script sees them: one per parameter, null for a default, and then those
beyond the parameters. -/
def bind (signature : Signature) (name : String) (args : List Value) :
    Except Fault (List Value) :=
  let count := signature.params.length
  if !signature.variadic && count < args.length then
    .error (.surplusArguments name signature.required count args.length)
  else
    let missing := (signature.params.take signature.required).drop args.length
    if !missing.isEmpty then .error (.missingArguments name false missing)
    else if !signature.requiredNames.isEmpty then
      .error (.missingArguments name true signature.requiredNames)
    else .ok (args ++ List.replicate (count - args.length) .null)

end Signature

namespace Callable

/-- The name under which a callable is listed; one without a name shows itself. -/
def name : Callable → String
  | script name _ _ nameless _ _ => if nameless then "<body " ++ name ++ ">" else name
  | builtin kind => kind.name

/-- The first line of a callable, if it has a name and lines at all. -/
def line : Callable → Nat
  | script _ _ _ nameless line _ => if nameless then 0 else line
  | builtin _ => 0

/-- Whether a call returns at once something that has to be awaited. -/
def suspends : Callable → Bool
  | script _ _ suspends _ _ _ => suspends
  | builtin _ => false

/-- How many positional arguments a callable takes as far as its signature shows, or no bound. -/
def positionalBound : Callable → Option Nat
  | script _ signature _ nameless _ _ =>
    if nameless || signature.variadic then none else some signature.params.length
  | builtin .largest => none
  | builtin .append => some 1
  | builtin .clear => some 0

/-- The arguments without those that the callable has no parameter for. -/
def fitArguments (callable : Callable) (args : List Value) : List Value :=
  match callable.positionalBound with
  | some bound => args.take bound
  | none => args

end Callable

mutual

/-- Whether the first value is greater than the second. Numbers and texts have an order, and lists
and tuples are ordered by the first items in which they differ. -/
def Value.greater : Value → Value → Except Fault Bool
  | .text a, .text b => .ok (decide (b < a))
  | .list a, .list b => Value.greaterItems a b
  | .tuple a, .tuple b => Value.greaterItems a b
  | a, b =>
    match a.number?, b.number? with
    | some (.inl x), some (.inl y) => .ok (decide (y < x))
    | some x, some y => .ok ((asReal y).less (asReal x))
    | _, _ => .error (.misuse ("'>' not supported between instances of '" ++ a.typeName ++
        "' and '" ++ b.typeName ++ "'"))
where
  asReal : Int ⊕ Number.Binary64 → Number.Binary64
    | .inl whole => .ofInt whole
    | .inr value => value

def Value.greaterItems : List Value → List Value → Except Fault Bool
  | [], _ => .ok false
  | _ :: _, [] => .ok true
  | a :: as, b :: bs => if a.same b then Value.greaterItems as bs else a.greater b

end

/-- The first of the greatest of some values, given the greatest so far. -/
def Value.greatest (best : Value) : List Value → Except Fault Value
  | [] => .ok best
  | value :: rest => do
    if ← value.greater best then greatest value rest else greatest best rest

/-- The values that iterating over a value yields. -/
def Value.items? : Value → Except Fault (List Value)
  | .list items => .ok items
  | .tuple items => .ok items
  | .text value => .ok (value.toList.map fun c => .text (String.ofList [c]))
  | .dict entries => .ok (entries.map (·.1))
  | value => .error (.misuse ("'" ++ value.typeName ++ "' object is not iterable"))

/-- What a builtin answers. -/
def Builtin.call : Builtin → List Value → Except Fault Value
  | largest, [] => .error (.misuse "max expected at least 1 argument, got 0")
  | largest, [value] => do
    match ← value.items? with
    | [] => .error (.raised .value (some "max() arg is an empty sequence"))
    | first :: rest => Value.greatest first rest
  | largest, first :: rest => Value.greatest first rest
  | append, [_] => .ok .null
  | append, args =>
    .error (.misuse ("list.append() takes exactly one argument (" ++ toString args.length ++
      " given)"))
  | clear, [] => .ok .null
  | clear, args =>
    .error (.misuse ("list.clear() takes no arguments (" ++ toString args.length ++ " given)"))

end FeatureRunner
