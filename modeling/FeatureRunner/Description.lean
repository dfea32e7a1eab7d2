import FeatureRunner.Command.Workspace
import FeatureRunner.Document.Json
import FeatureRunner.StepModule
import FeatureRunner.World.Loop

/-!
Values, scripts and step files as they are described in JSON documents. An object with a marked
key, such as `$tuple` or `$regex`, stands for a value that JSON has no form for; an object with
`actions` describes a callable.
-/

namespace FeatureRunner.Description
open FeatureRunner.Number

/-- The methods of the ready helpers that were described so far; each has its place as number. -/
abbrev Reading (α : Type) := StateM (List (List (String × Callable))) α

/-- What a description stands for, and the methods of the ready helpers with those in it added. -/
def Reading.run {α : Type} (reading : Reading α) (known : List (List (String × Callable))) :
    α × List (List (String × Callable)) :=
  Id.run (StateT.run reading known)

/-- The text that an entry of an object has, or a default. -/
def textAt (entries : List (Value × Value)) (key default : String) : String :=
  match Value.field? entries key with
  | some (.text value) => value
  | _ => default

/-- The whole number that an entry of an object has, or a default. -/
def intAt (entries : List (Value × Value)) (key : String) (default : Int) : Int :=
  match Value.field? entries key with
  | some (.int value) => value
  | _ => default

/-- Whether an entry of an object counts as true. -/
def flagAt (entries : List (Value × Value)) (key : String) : Bool :=
  (Value.field? entries key).any Value.truthy

/-- The items of a list; none for anything else. -/
def itemsOf : Value → List Value
  | .list items => items
  | _ => []

def itemsAt (entries : List (Value × Value)) (key : String) : List Value :=
  ((Value.field? entries key).map itemsOf).getD []

/-- The entries of an object; none for anything else. -/
def entriesOf : Value → List (Value × Value)
  | .dict entries => entries
  | _ => []

def entriesAt (entries : List (Value × Value)) (key : String) : List (Value × Value) :=
  ((Value.field? entries key).map entriesOf).getD []

def textOf : Value → String
  | .text value => value
  | _ => ""

def textsAt (entries : List (Value × Value)) (key : String) : List String :=
  (itemsAt entries key).map textOf

def intOf : Value → Int
  | .int value => value
  | _ => 0

/-- A table as a list of rows, the headings first. -/
def tableOf (rows : List Value) : Table :=
  let texts := rows.map fun row => (itemsOf row).map textOf
  ⟨texts.headD [], texts.tail⟩

def errorKindOf (name : String) : ErrorKind :=
  (ErrorKind.ofName? name).getD .exception

def builtinOf : String → Builtin
  | "max" => .largest
  | "append" => .append
  | _ => .clear

def recorderCallOf : String → RecorderCall
  | "start" => .start
  | "stop" => .stop
  | "recover" => .recover
  | _ => .startUnlessRunning

/-- The values that name things: a first text and the items after it. -/
def named : List Value → String × List Value
  | first :: rest => (textOf first, rest)
  | [] => ("", [])

/-- The marked value that an object with one key stands for, if it needs no further reading. -/
def marked? (entries : List (Value × Value)) : Option Term :=
  match entries with
  | [(.text "$float", .text digits)] =>
    some (.const (.float ((readNumber? digits.toList).getD .nan)))
  | [(.text "$int", .text digits)] => some (.const (.int ((readInt? digits.toList).getD 0)))
  | [(.text "$table", .list rows)] => some (.const (.table (tableOf rows)))
  | [(.text "$arg", .int index)] => some (.argument index.toNat)
  | [(.text "$args", _)] => some .arguments
  | [(.text "$state", .text name)] => some (.valueOf name)
  | [(.text "$view", .list [.text view, .int index])] => some (.view view index.toNat)
  | _ =>
    match Value.field? entries "$regex" with
    | some (.text source) =>
      some (.const (.regex ⟨source, (textAt entries "flags" "").contains 'i'⟩))
    | _ => none

mutual

/-- Reads a value, at most `depth` levels of it. -/
def readTerm : Nat → Value → Reading Term
  | 0, _ => pure (.const .null)
  | depth + 1, .list items => return .list (← items.mapM (readTerm depth))
  | depth + 1, .dict entries =>
    match marked? entries, entries with
    | some term, _ => pure term
    | none, [(.text "$tuple", .list items)] => return .tuple (← items.mapM (readTerm depth))
    | none, [(.text "$pairs", .list pairs)] =>
      return .dict (← pairs.mapM fun pair => do
        let key ← readTerm depth ((itemsOf pair).getD 0 .null)
        let value ← readTerm depth ((itemsOf pair).getD 1 .null)
        pure (key, value))
    | none, [(.text "$helper", .dict helper)] => do
      let methods ← (entriesAt helper "methods").mapM fun entry => do
        pure (textOf entry.1, ← readCallable depth true (entriesOf entry.2))
      let known ← get
      set (known ++ [methods])
      return .const (.helper (textAt helper "name" "") known.length)
    | none, _ => return .dict (← entries.mapM fun entry => do
        pure (Term.const entry.1, ← readTerm depth entry.2))
  | _ + 1, value => pure (.const value)

/-- Reads an action of a script. -/
def readAction : Nat → Value → Reading Action
  | 0, _ => pure (.yield 0)
  | depth + 1, description => do
    let entries := entriesOf description
    match entries with
    | (.text "log", value) :: _ => return .log (← readTerm depth value)
    | (.text "return", value) :: _ => return .give (← readTerm depth value)
    | (.text "act", value) :: _ => return .act (← (itemsOf value).mapM (readTerm depth))
    | (.text "await_act", value) :: _ =>
      return .awaitAct (← (itemsOf value).mapM (readTerm depth))
    | (.text "call", value) :: _ =>
      let (method, args) := named (itemsOf value)
      return .invoke method (← args.mapM (readTerm depth))
    | (.text "await_call", value) :: _ =>
      let (method, args) := named (itemsOf value)
      return .awaitInvoke method (← args.mapM (readTerm depth))
    | (.text "wait", gate) :: _ => return .wait (textOf gate)
    | (.text "yield", times) :: _ => return .yield (intOf times).toNat
    | (.text "advance", amount) :: _ => return .advance (intOf amount)
    | (.text "set", .list [name, value]) :: _ =>
      return .set (textOf name) (← readTerm depth value)
    | (.text "inc", .list [name, value]) :: _ =>
      return .increase (textOf name) (← readTerm depth value)
    | (.text "expect", .list [name, value]) :: _ =>
      return .expect (textOf name) (← readTerm depth value)
    | (.text "add", .list [name, .dict callable]) :: _ =>
      return .add (textOf name) (some (← readCallable depth false callable))
    | (.text "add", .list (name :: _)) :: _ => return .add (textOf name) none
    | (.text "on", .list [event, listener]) :: _ =>
      return .subscribe (textOf event) (textOf listener)
    | (.text "off", .list [event, listener]) :: _ =>
      return .unsubscribe (textOf event) (textOf listener)
    | (.text "emit", value) :: _ =>
      let (event, args) := named (itemsOf value)
      return .emit event (← args.mapM (readTerm depth))
    | (.text "recorder", call) :: _ => return .recorder (recorderCallOf (textOf call))
    | _ =>
      match Value.field? entries "raise" with
      | some kind =>
        let message := match Value.field? entries "message" with
          | some (.text text) => some text
          | _ => none
        return .raise (errorKindOf (textOf kind)) message
      | none => return .yield 0

/-- Reads a callable; listeners and helper methods take any number of arguments. -/
def readCallable : Nat → Bool → List (Value × Value) → Reading Callable
  | 0, _, _ => pure (.builtin .clear)
  | depth + 1, variadic, entries => do
    match Value.field? entries "builtin" with
    | some name => return .builtin (builtinOf (textOf name))
    | none =>
      let params := textsAt entries "params"
      let signature : Signature :=
        ⟨params, (intAt entries "required" params.length).toNat,
          variadic || flagAt entries "varargs", textsAt entries "kwrequired"⟩
      let actions ← (itemsAt entries "actions").mapM (readAction depth)
      return .script (textAt entries "name" "body") signature (flagAt entries "async")
        (flagAt entries "nameless") (intAt entries "line" 0).toNat actions

end

/-- How deep descriptions may nest. -/
def depthBound : Nat := 400

def term (description : Value) : Reading Term :=
  readTerm depthBound description

def callable (variadic : Bool) (description : Value) : Reading Callable :=
  readCallable depthBound variadic (entriesOf description)

/-- Reads a callable, or nothing where null stands for none. -/
def task? : Value → Reading (Option Callable)
  | .dict entries => return some (← readCallable depthBound false entries)
  | _ => pure none

/-- The value of a description that depends on no arguments and no variables. -/
def constant (description : Value) : Reading Value := do
  let closed ← term description
  match ((World.initial ⟨0, none⟩).perform (closed.eval []) id).1 with
  | .ok value => return value
  | .error _ => return .null

/-- Reads a decorator of a function. -/
def decorator (description : Value) : Reading Decorator := do
  let entries := entriesOf description
  let pattern ← constant ((Value.field? entries "pattern").getD .null)
  return ⟨.ofKeyword (textAt entries "keyword" ""), pattern, textAt entries "description" ""⟩

/-- Reads a function and defines it in a module. -/
def define (module : StepModule) (description : Value) : Reading StepModule := do
  let entries := entriesOf description
  let decorators ← (itemsAt entries "marks").mapM decorator
  return module.define (textAt entries "name" "body") (← callable false description) none decorators

/-- Reads a function as the only one of a module. -/
def function (description : Value) : Reading MarkedFunction := do
  let module ← define .empty description
  return (module.names.findSome? module.attribute?).getD default

/-- Reads a registration that loading a step file performs. -/
def registration (description : Value) : Reading Command.Registration := do
  let entries := entriesOf description
  let pattern ← constant ((Value.field? entries "pattern").getD .null)
  let body ← callable false ((Value.field? entries "body").getD .null)
  return ⟨textAt entries "keyword" "", pattern, body, textAt entries "description" ""⟩

/-- Reads a step file: its registrations, its marked functions, and the fault that it raises. -/
def stepFile (path : List String) (description : Value) : Reading Command.StepFile := do
  let entries := entriesOf description
  let registrations ← (itemsAt entries "direct").mapM registration
  let module ← (itemsAt entries "functions").foldlM define .empty
  let message := match Value.field? entries "message" with
    | some (.text message) => some message
    | _ => none
  let failure := match Value.field? entries "raise" with
    | some (.text kind) => some (Fault.raised (errorKindOf kind) message)
    | _ => none
  return ⟨path, registrations, module.marked, failure⟩

end FeatureRunner.Description
