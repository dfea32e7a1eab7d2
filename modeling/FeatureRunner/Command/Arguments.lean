import FeatureRunner.Text.Blank
import FeatureRunner.Text.Quoted

/-!
Command-line arguments: options with one or two dashes, with or without a value, and the
positional arguments between them.
-/

namespace FeatureRunner.Command
open FeatureRunner.Text

/-- An option by its names; the first identifies it. -/
structure OptionForm where
  names : List String
  takesValue : Bool
  deriving DecidableEq, Repr

/-- What is wrong with arguments. -/
inductive UsageProblem
  | noSuchOption (name : String)
  | valueMissing (name : String)
  | valueNotTaken (name : String)
  | noSuchCommand (name : String)
  | commandMissing
  | argumentMissing (name : String)
  | noSuchPath (argument path : String)
  | noSuchChoice (option : String) (value : String) (choices : List String)
  | surplus (arguments : List String)
  | invalid (problem : String)
  deriving DecidableEq, Repr

def UsageProblem.message : UsageProblem → String
  | noSuchOption name => "No such option " ++ quoted name ++ "."
  | valueMissing name => "Option " ++ quoted name ++ " requires an argument."
  | valueNotTaken name => "Option " ++ quoted name ++ " does not take a value."
  | noSuchCommand name => "No such command " ++ quoted name ++ "."
  | commandMissing => "Missing command."
  | argumentMissing name => "Missing argument '" ++ name ++ "'."
  | noSuchPath argument path =>
    "Invalid value for '" ++ argument ++ "': Path " ++ quoted path ++ " does not exist."
  | noSuchChoice option value choices =>
    "Invalid value for " ++ option ++ ": " ++ quoted value ++ " is not one of " ++
      ", ".intercalate (choices.map quoted) ++ "."
  | surplus arguments =>
    "Got unexpected extra argument" ++ (if arguments.length == 1 then "" else "s") ++ " (" ++
      " ".intercalate arguments ++ ")"
  | invalid problem => "Invalid value: " ++ problem

/-- Arguments that were read: the options with their values in the order given, the positional
arguments, and what was left unread. -/
structure Arguments where
  options : List (String × String)
  positional : List String

namespace Arguments

/-- The values that an option was given, in order. -/
def values (arguments : Arguments) (name : String) : List String :=
  (arguments.options.filter (·.1 == name)).map (·.2)

/-- The value that an option was given last. -/
def value? (arguments : Arguments) (name : String) : Option String :=
  (arguments.values name).getLast?

def has (arguments : Arguments) (name : String) : Bool :=
  arguments.options.any (·.1 == name)

def addOption (name value : String) (arguments : Arguments) : Arguments :=
  { arguments with options := (name, value) :: arguments.options }

def addPositional (value : String) (arguments : Arguments) : Arguments :=
  { arguments with positional := value :: arguments.positional }

end Arguments

def findForm (forms : List OptionForm) (name : String) : Option OptionForm :=
  forms.find? (·.names.contains name)

/-- Reads a cluster of one-letter options. An option with a value takes the rest of the cluster, or
else the argument after it. -/
def readCluster (forms : List OptionForm) :
    List Char → List String → Except UsageProblem (List (String × String) × List String)
  | [], rest => .ok ([], rest)
  | letter :: letters, rest =>
    let name := String.ofList ['-', letter]
    match findForm forms name with
    | none => .error (.noSuchOption name)
    | some form =>
      let key := form.names.headD name
      if form.takesValue then
        match letters, rest with
        | [], [] => .error (.valueMissing name)
        | [], value :: rest => .ok ([(key, value)], rest)
        | _, _ => .ok ([(key, String.ofList letters)], rest)
      else do
        let (options, rest) ← readCluster forms letters rest
        return ((key, "") :: options, rest)

/-- Reads an option that is written out in full, with its value behind an equals sign or in the
argument after it; nothing if there is none of that name. -/
def readLong? (forms : List OptionForm) (argument : String) (rest : List String) :
    Option (Except UsageProblem (List (String × String) × List String)) :=
  let (name, given) := match cutAt? '=' argument.toList with
    | some (name, value) => (String.ofList name, some (String.ofList value))
    | none => (argument, none)
  if name.length ≤ 2 then none
  else (findForm forms name).map fun form =>
    let key := form.names.headD name
    match form.takesValue, given, rest with
    | true, some value, _ => .ok ([(key, value)], rest)
    | true, none, value :: rest => .ok ([(key, value)], rest)
    | true, none, [] => .error (.valueMissing name)
    | false, some _, _ => .error (.valueNotTaken name)
    | false, none, _ => .ok ([(key, "")], rest)

/-- Reads one option and what belongs to it. -/
def readOption (forms : List OptionForm) (argument : String) (rest : List String) :
    Except UsageProblem (List (String × String) × List String) :=
  match readLong? forms argument rest with
  | some result => result
  | none =>
    if argument.startsWith "--" then
      .error (.noSuchOption (String.ofList (argument.toList.takeWhile (· != '='))))
    else readCluster forms argument.toList.tail rest

/-- Reads arguments, at most `bound` of them. Where options may not follow positional arguments,
the first positional argument and all behind it are left as they are. -/
def readWithin (forms : List OptionForm) (interspersed : Bool) :
    Nat → List String → Except UsageProblem Arguments
  | _, [] => .ok ⟨[], []⟩
  | 0, rest => .ok ⟨[], rest⟩
  | bound + 1, argument :: rest => do
    if argument == "--" then return ⟨[], rest⟩
    else if argument.startsWith "-" && 1 < argument.length then
      let (options, rest) ← readOption forms argument rest
      let arguments ← readWithin forms interspersed bound rest
      return { arguments with options := options ++ arguments.options }
    else if interspersed then
      return (← readWithin forms interspersed bound rest).addPositional argument
    else return ⟨[], argument :: rest⟩

def Arguments.read (forms : List OptionForm) (interspersed : Bool) (arguments : List String) :
    Except UsageProblem Arguments :=
  readWithin forms interspersed arguments.length arguments

end FeatureRunner.Command
