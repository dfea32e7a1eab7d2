import FeatureRunner.Pattern
import FeatureRunner.Process
import FeatureRunner.Text.LetterCase

/-!
The registry of step definitions. Definitions are kept in the order of registration, and a step
text belongs to the first definition whose pattern it matches, whatever its keyword.
-/

namespace FeatureRunner
open FeatureRunner.Text

/-- A pattern with the callable that performs the steps it matches. -/
structure StepDefinition where
  /-- The keyword in lower case, which plays no part in matching. -/
  keyword : String
  pattern : StepPattern
  callable : Callable
  description : String

/-- A definition with the parameters that a step text gives it. -/
structure StepMatch where
  /-- The place of the definition in its registry. -/
  index : Nat
  definition : StepDefinition
  params : List Value

/-- The definitions, and the white space policy under which further patterns are compiled. -/
structure Registry where
  definitions : List StepDefinition
  whitespace : Value

/-- A registration that a function of a module is marked with. -/
structure Mark where
  keyword : String
  pattern : Value
  description : String

/-- A function of a module under its name there, with its marks from the top. -/
structure MarkedFunction where
  name : String
  callable : Callable
  marks : List Mark
  deriving Inhabited

/-- What a definition is listed as. -/
structure DefinitionCard where
  keyword : String
  pattern : String
  description : String
  function : String
  deriving DecidableEq, Repr

namespace StepMatch

/-- A match with one more parameter: the table or the text under a step. -/
def withArgument (found : StepMatch) (argument : Value) : StepMatch :=
  { found with params := found.params ++ [argument] }

/-- The arguments of a call: the parameters if it has none of its own, and the items of a single
list or tuple. -/
def arguments (found : StepMatch) : List Value → List Value
  | [] => found.params
  | [.list items] => items
  | [.tuple items] => items
  | args => args

/-- Calls the definition, as the body of a step, with those of the arguments that it has parameters
for. -/
def call (found : StepMatch) (args : List Value) : Program Value :=
  let callable := found.definition.callable
  Program.call .step callable (callable.fitArguments (found.arguments args))

/-- What a call answers before anything is awaited: the result, or for a callable that suspends
only that its arguments fit. -/
def begin (found : StepMatch) (args : List Value) : Program Value :=
  match found.definition.callable with
  | .script name signature true nameless line actions => do
    let callable := Callable.script name signature true nameless line actions
    let _ ← Program.ofExcept
      (signature.bind name (callable.fitArguments (found.arguments args)))
    return .text "coroutine"
  | _ => found.call args

end StepMatch

namespace StepDefinition

/-- The parameters that a text gives a definition, if it matches. -/
def match? (definition : StepDefinition) (text : String) : Except Fault (Option (List Value)) :=
  definition.pattern.match? text

def card (definition : StepDefinition) : DefinitionCard :=
  ⟨definition.keyword, definition.pattern.source, definition.description,
    definition.callable.name⟩

end StepDefinition

namespace Registry

/-- No definitions, and the policy by which any white space matches any other. -/
def initial : Registry := ⟨[], .text WhitespacePolicy.tolerant.name⟩

/-- Registers a definition whose pattern compiles under the present policy. -/
def add (registry : Registry) (keyword : String) (pattern : Value) (callable : Callable)
    (description : String) : Except Fault Registry := do
  let compiled ← StepPattern.compile pattern registry.whitespace
  return { registry with
    definitions := registry.definitions ++ [⟨lower keyword, compiled, callable, description⟩] }

/-- The first of some definitions, counted from `index`, that matches. -/
def firstMatch (text : String) : Nat → List StepDefinition → Except Fault (Option StepMatch)
  | _, [] => .ok none
  | index, definition :: rest => do
    match ← definition.match? text with
    | some params => return some ⟨index, definition, params⟩
    | none => firstMatch text (index + 1) rest

/-- The first definition that matches a text, if any does. -/
def find? (registry : Registry) (text : String) : Except Fault (Option StepMatch) :=
  firstMatch text 0 registry.definitions

/-- The match of a text; a text without one is a fault. -/
def resolve (registry : Registry) (text : String) : Except Fault StepMatch := do
  match ← registry.find? text with
  | some found => return found
  | none => .error (.noMatch text)

def list (registry : Registry) : List DefinitionCard :=
  registry.definitions.map StepDefinition.card

def clear (registry : Registry) : Registry :=
  { registry with definitions := [] }

/-- Registers one callable under each of its marks, up to the first that fails. -/
def addMarks (callable : Callable) : List Mark → Registry → Except Fault Unit × Registry
  | [], registry => (.ok (), registry)
  | mark :: rest, registry =>
    match registry.add mark.keyword mark.pattern callable mark.description with
    | .ok registry => addMarks callable rest registry
    | .error fault => (.error fault, registry)

/-- Registers functions one after the other, up to the first mark that fails. -/
def addFunctions : List MarkedFunction → Registry → Except Fault Unit × Registry
  | [], registry => (.ok (), registry)
  | marked :: rest, registry =>
    match addMarks marked.callable marked.marks registry with
    | (.ok (), registry) => addFunctions rest registry
    | failed => failed

/-- The functions of a module by name; of several with one name only the last is there. -/
def distinctFunctions (functions : List MarkedFunction) : List MarkedFunction :=
  functions.foldl (fun kept marked =>
    kept.filter (·.name != marked.name) ++ [marked]) []

/-- The functions of a module in the order of their first lines, those of one line by name. -/
def sourceOrder (functions : List MarkedFunction) : List MarkedFunction :=
  ((distinctFunctions functions).mergeSort fun a b => !(b.name < a.name)).mergeSort
    fun a b => a.callable.line ≤ b.callable.line

/-- Registers the marked functions of a module in source order. -/
def addModule (registry : Registry) (functions : List MarkedFunction) :
    Except Fault Unit × Registry :=
  addFunctions (sourceOrder functions) registry

end Registry

end FeatureRunner
