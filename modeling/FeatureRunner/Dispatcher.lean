import FeatureRunner.Process

/-!
The dispatcher calls the listeners of an event in the order of their subscription. An emission
calls those subscribed when it began.
-/

namespace FeatureRunner

/-- The listeners of each event, in the order of subscription. -/
structure Dispatcher where
  subscriptions : List (String × List Listener)

namespace Dispatcher

def initial : Dispatcher := ⟨[]⟩

/-- The listeners of an event. -/
def listeners (dispatcher : Dispatcher) (event : String) : List Listener :=
  ((dispatcher.subscriptions.find? (·.1 == event)).map (·.2)).getD []

/-- The subscriptions with a change made to the listeners of one event. -/
def update (event : String) (change : List Listener → List Listener) :
    List (String × List Listener) → List (String × List Listener)
  | [] => [(event, change [])]
  | (known, listeners) :: rest =>
    if known == event then (known, change listeners) :: rest
    else (known, listeners) :: update event change rest

/-- Subscribes a listener, once more if it is subscribed already. -/
def on (dispatcher : Dispatcher) (event : String) (listener : Listener) : Dispatcher :=
  ⟨update event (· ++ [listener]) dispatcher.subscriptions⟩

/-- Takes back the earliest subscription of a listener, if there is one. -/
def off (dispatcher : Dispatcher) (event : String) (listener : Listener) : Dispatcher :=
  ⟨update event (·.erase listener) dispatcher.subscriptions⟩

def clear (_ : Dispatcher) : Dispatcher := ⟨[]⟩

/-- How many subscriptions there are. -/
def size (dispatcher : Dispatcher) : Nat :=
  (dispatcher.subscriptions.flatMap (·.2)).length

end Dispatcher

/-- Calls a listener. What a suspending listener would do is never awaited, so of it only the
check of its arguments takes place. -/
def Subscriber.notify (args : List Value) : Subscriber → Program Value
  | .callable (.script name signature true _ _ _) => Program.within .listener do
    let _ ← Program.ofExcept (signature.bind name args)
    return .null
  | .callable plain => Program.call .listener plain args
  | .collector event => Program.within .listener do
    Program.ofExcept (← Program.ask (.collect event args))
    return .null

def notifyAll (args : List Value) : List Subscriber → Program Unit
  | [] => pure ()
  | subscriber :: rest => do
    let _ ← subscriber.notify args
    notifyAll args rest

/-- Calls every listener of an event on someone's behalf; the first fault ends the emission. -/
def emitFor (role : Role) (event : String) (args : List Value) : Program Unit := do
  notifyAll args (← Program.ask (.subscribers role event args))

def emit (event : String) (args : List Value) : Program Unit :=
  emitFor .outside event args

end FeatureRunner
