import FeatureRunner.Fault
import FeatureRunner.Number.Shortest
import FeatureRunner.Table

/-!
The values that step bodies, helpers, listeners and configuration files pass around, their
equality and their truth.
-/

namespace FeatureRunner
open FeatureRunner.Number

/-- A regular expression as it was written. -/
structure RegexText where
  source : String
  ignoreCase : Bool
  deriving DecidableEq, Repr

/-- What a listener is told about a step of a test. -/
structure StepCard where
  keyword : String
  text : String
  deriving DecidableEq, Repr

/-- What a listener is told about a test. -/
structure TestCard where
  title : String
  tags : List String
  steps : List StepCard
  deriving DecidableEq, Repr

/-- What a listener is told about a suite. -/
structure SuiteCard where
  title : String
  tags : List String
  deriving DecidableEq, Repr

/-- The helper classes that a configuration can name. -/
inductive HelperClass
  /-- Takes any options and answers every action with the number of its arguments. -/
  | echo
  /-- Keeps a total. -/
  | counter
  /-- Requires a limit. -/
  | strict
  deriving DecidableEq, Repr

def HelperClass.name : HelperClass → String
  | echo => "Echo"
  | counter => "Counter"
  | strict => "Strict"

/-- A value. Mappings keep the order in which their keys were first put. -/
inductive Value
  | null
  | bool (value : Bool)
  | int (value : Int)
  | float (value : Binary64)
  | text (value : String)
  | list (items : List Value)
  | tuple (items : List Value)
  | dict (entries : List (Value × Value))
  | regex (pattern : RegexText)
  | table (table : Table)
  /-- A ready helper: its label and its number among the ready helpers. -/
  | helper (label : String) (number : Nat)
  /-- An instance of a helper class: its options and its number among the instances. -/
  | built (helperClass : HelperClass) (options : List (Value × Value)) (number : Nat)
  | fault (fault : Fault)
  /-- What listeners of a cancelled task are told. -/
  | cancellation
  | test (card : TestCard)
  | suite (card : SuiteCard)
  /-- The result that a task will have. -/
  | future (task : Nat)
  /-- Anything else, by the name of its type. -/
  | other (typeName : String)
  deriving Inhabited

namespace Value

def typeName : Value → String
  | null => "NoneType"
  | bool _ => "bool"
  | int _ => "int"
  | float _ => "float"
  | text _ => "str"
  | list _ => "list"
  | tuple _ => "tuple"
  | dict _ => "dict"
  | regex _ => "Pattern"
  | table _ => "DataTable"
  | helper .. => "Helper"
  | built helperClass .. => helperClass.name
  | fault cause => cause.kind.name
  | cancellation => "CancelledError"
  | test _ => "Test"
  | suite _ => "Suite"
  | future _ => "Task"
  | other name => name

/-- Whether a value counts as true in a condition: all but null, zero and what is empty do. -/
def truthy : Value → Bool
  | null => false
  | bool value => value
  | int value => value != 0
  | float value => !value.isZero
  | text value => !value.isEmpty
  | list items => !items.isEmpty
  | tuple items => !items.isEmpty
  | dict entries => !entries.isEmpty
  | _ => true

/-- A number as a whole number or a floating-point number; truth values are 0 and 1. -/
def number? : Value → Option (Int ⊕ Binary64)
  | bool value => some (.inl (if value then 1 else 0))
  | int value => some (.inl value)
  | float value => some (.inr value)
  | _ => none

/-- Whether a whole number and a floating-point number have the same value. -/
def sameIntFloat (whole : Int) (x : Binary64) : Bool :=
  match x.quotient? with
  | some (dividend, divisor) => dividend == whole * divisor
  | none => false

/-- Equality of two numbers of any kinds. -/
def sameNumber : Int ⊕ Binary64 → Int ⊕ Binary64 → Bool
  | .inl a, .inl b => a == b
  | .inl a, .inr y => sameIntFloat a y
  | .inr x, .inl b => sameIntFloat b x
  | .inr x, .inr y => x.same y

mutual

/-- Equality of values: numbers by value, mappings whatever their order, helpers by identity. -/
def same : Value → Value → Bool
  | null, null => true
  | text a, text b => a == b
  | list a, list b => sameList a b
  | tuple a, tuple b => sameList a b
  | dict a, dict b => a.length == b.length && sameEntries a b
  | regex a, regex b => a == b
  | table a, table b => a == b
  | helper _ a, helper _ b => a == b
  | built _ _ a, built _ _ b => a == b
  | fault a, fault b => a == b
  | cancellation, cancellation => true
  | test a, test b => a == b
  | suite a, suite b => a == b
  | future a, future b => a == b
  | other a, other b => a == b
  | a, b =>
    match a.number?, b.number? with
    | some x, some y => sameNumber x y
    | _, _ => false

def sameList : List Value → List Value → Bool
  | [], [] => true
  | a :: as, b :: bs => same a b && sameList as bs
  | _, _ => false

/-- Whether every entry of the first mapping is one of the second. -/
def sameEntries : List (Value × Value) → List (Value × Value) → Bool
  | [], _ => true
  | (key, value) :: rest, entries =>
    entries.any (fun entry => same key entry.1 && same value entry.2) && sameEntries rest entries

end

/-- The value under a key. -/
def lookup? (entries : List (Value × Value)) (key : Value) : Option Value :=
  (entries.find? fun entry => entry.1.same key).map (·.2)

/-- The value under a text key. -/
def field? (entries : List (Value × Value)) (key : String) : Option Value :=
  lookup? entries (.text key)

/-- Puts a value under a key: in place if the key is known, else at the end. -/
def put (key value : Value) : List (Value × Value) → List (Value × Value)
  | [] => [(key, value)]
  | (known, old) :: rest =>
    if known.same key then (known, value) :: rest else (known, old) :: put key value rest

/-- The entries with each key once, under its last value and in the place of its first. -/
def distinctEntries (entries : List (Value × Value)) : List (Value × Value) :=
  entries.foldl (fun map entry => put entry.1 entry.2 map) []

def remove (key : Value) (entries : List (Value × Value)) : List (Value × Value) :=
  entries.filter fun entry => !entry.1.same key

def ofTexts (texts : List String) : Value :=
  .list (texts.map .text)

/-- A mapping with text keys. -/
def record (entries : List (String × Value)) : Value :=
  .dict (entries.map fun entry => (.text entry.1, entry.2))

end Value

end FeatureRunner
