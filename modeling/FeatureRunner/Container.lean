import FeatureRunner.Process
import FeatureRunner.Text.Blank
import FeatureRunner.Value.Display

/-!
The container holds the named helpers that actions are dispatched to, and support objects beside
them. A configuration lists helpers as ready objects or as mappings with a class path and options.
-/

namespace FeatureRunner
open FeatureRunner.Text

/-- What a helper module has under a name. -/
inductive ModuleMember
  | helperClass (helperClass : HelperClass)
  /-- Something that cannot be called, by the name of its type. -/
  | plain (typeName : String)
  deriving DecidableEq, Repr

/-- A module that class paths can name. Only a package has modules below it. -/
structure HelperModule where
  path : String
  isPackage : Bool
  members : List (String × ModuleMember)

/-- The helpers and support objects by name, in the order in which the names were first put. -/
structure Container where
  helpers : List (Value × Value)
  support : List (Value × Value)
  /-- The total of every instance of a helper class that was ever built. -/
  totals : List Value

namespace Container

def initial : Container := ⟨[], [], []⟩

def clear (container : Container) : Container :=
  { container with helpers := [], support := [] }

/-- A class path as the path of its module and the member: divided at the first colon, or without
one at the last point. -/
def dividePath (path : String) : List Char × List Char :=
  match cutAt? ':' path.toList with
  | some halves => halves
  | none => (cutAtLast? '.' path.toList).getD ([], path.toList)

/-- The paths of a module and of the packages above it, from the top. -/
def pathsAbove (path : List Char) : List (List Char) :=
  let parts := splitAt '.' path
  (List.range parts.length).map fun count => ['.'].intercalate (parts.take (count + 1))

/-- The module with a path. The first path above it that is missing makes the message. -/
def findModule (modules : List HelperModule) (path : List Char) : Except Fault HelperModule :=
  if path.head? == some '.' then
    .error (.misuse ("the 'package' argument is required to perform a relative import for " ++
      quoted (String.ofList path)))
  else go none (pathsAbove path)
where
  fail (reason : String) : Except Fault HelperModule :=
    .error (.helperModule (String.ofList path) reason)
  go (above : Option HelperModule) : List (List Char) → Except Fault HelperModule
    | [] => match above with
      | some found => .ok found
      | none => fail ""
    | next :: rest =>
      let name := String.ofList next
      match modules.find? (·.path == name), above with
      | some found, _ => go (some found) rest
      | none, some parent =>
        fail ("No module named " ++ quoted name ++
          if parent.isPackage then "" else "; " ++ quoted parent.path ++ " is not a package")
      | none, none => fail ("No module named " ++ quoted name)

/-- The member that a class path names. -/
def findMember (modules : List HelperModule) (path : String) : Except Fault ModuleMember := do
  let (modulePath, member) := dividePath path
  if modulePath.isEmpty || member.isEmpty then .error (.helperClassPath path)
  else
    let found ← findModule modules modulePath
    match found.members.find? (·.1 == String.ofList member) with
    | some entry => .ok entry.2
    | none => .error (.helperClass (String.ofList member) (String.ofList modulePath))

/-- The text of a class path; other values lack what dividing a path needs. -/
def classPath : Value → Except Fault String
  | .text path => .ok path
  | .list _ => .error (.missingMember "list" "rpartition")
  | .tuple _ => .error (.missingMember "tuple" "rpartition")
  | .dict _ => .error (.missingMember "dict" "rpartition")
  | value => .error (.misuse ("argument of type '" ++ value.typeName ++ "' is not iterable"))

/-- The fault of an option that a class does not take. -/
def surplusOption (helperClass : HelperClass) (key : Value) : Fault :=
  .misuse (helperClass.name ++ ".__init__() got an unexpected keyword argument " ++ key.shown)

/-- The options that an instance keeps, given those of its configuration. -/
def keptOptions (helperClass : HelperClass) (options : List (Value × Value)) :
    Except Fault (List (Value × Value)) :=
  match helperClass with
  | .echo =>
    if (Value.field? options "self").isSome then
      .error (.misuse "Echo.__init__() got multiple values for argument 'self'")
    else .ok options
  | .counter =>
    match options.find? fun option => !option.1.same (.text "start") with
    | some option => .error (surplusOption .counter option.1)
    | none => .ok [(.text "start", (Value.field? options "start").getD (.int 0))]
  | .strict =>
    match options.find? fun option => !option.1.same (.text "limit") with
    | some option => .error (surplusOption .strict option.1)
    | none =>
      if options.isEmpty then .error (.missingArguments "Strict.__init__" false ["limit"])
      else .ok options

def isText : Value → Bool
  | .text _ => true
  | _ => false

/-- An instance of a helper class. -/
def instantiate (container : Container) (helperClass : HelperClass)
    (options : List (Value × Value)) : Except Fault (Value × Container) := do
  if !options.all (isText ·.1) then .error (.misuse "keywords must be strings")
  else
    let kept ← keptOptions helperClass options
    let total := (Value.field? kept "start").getD .null
    .ok (.built helperClass kept container.totals.length,
      { container with totals := container.totals ++ [total] })

/-- The helper that an entry of a configuration describes: a mapping names its class, and anything
else is the helper itself. -/
def build (container : Container) (modules : List HelperModule) (name : Value) :
    Value → Except Fault (Value × Container)
  | .dict entries => do
    let path := (Value.field? entries "class").getD .null
    if !path.truthy then .error (.helperWithoutClass name.display)
    else match ← findMember modules (← classPath path) with
      | .helperClass helperClass =>
        container.instantiate helperClass (Value.remove (.text "class") entries)
      | .plain typeName => .error (.misuse ("'" ++ typeName ++ "' object is not callable"))
  | helper => .ok (helper, container)

/-- Adds the helpers of a configuration one by one, up to the first that cannot be built. -/
def addHelpers (modules : List HelperModule) :
    List (Value × Value) → Container → Except Fault Unit × Container
  | [], container => (.ok (), container)
  | (name, entry) :: rest, container =>
    match container.build modules name entry with
    | .ok (helper, container) =>
      addHelpers modules rest
        { container with helpers := Value.put name helper container.helpers }
    | .error fault => (.error fault, container)

def addSupport (entries : List (Value × Value)) (container : Container) : Container :=
  { container with
    support := entries.foldl (fun support entry => Value.put entry.1 entry.2 support)
      container.support }

/-- The entries of a section of a configuration: none if it is missing or counts as false. -/
def section? (config : Value) (name : String) : Except Fault (List (Value × Value)) :=
  match config with
  | .dict entries =>
    let found := (Value.field? entries name).getD .null
    if !found.truthy then .ok []
    else match found with
      | .dict inner => .ok inner
      | other => .error (.missingMember other.typeName "items")
  | other => .error (.missingMember other.typeName "get")

/-- Adds what a configuration describes to the contents. Helpers that were built before a fault
stay. -/
def append (container : Container) (modules : List HelperModule) (config : Value) :
    Except Fault Unit × Container :=
  match section? config "helpers" with
  | .error fault => (.error fault, container)
  | .ok helpers =>
    match addHelpers modules helpers container with
    | (.error fault, container) => (.error fault, container)
    | (.ok (), container) =>
      match section? config "support" with
      | .error fault => (.error fault, container)
      | .ok support => (.ok (), container.addSupport support)

/-- Replaces the contents with what a configuration describes. -/
def create (container : Container) (modules : List HelperModule) (config : Value) :
    Except Fault Unit × Container :=
  container.clear.append modules (if config.truthy then config else .dict [])

/-- The method that a class gives its instances under a name. -/
def classMethod? (helperClass : HelperClass) (instanceNumber : Nat) (name : String) :
    Option Method :=
  match helperClass with
  | .echo => if name == "do" then some .echo else none
  | .counter => if name == "add" then some (.count instanceNumber) else none
  | .strict => none

/-- The method of a name that a helper provides. Ready helpers have theirs listed by number. -/
def methodOf? (ready : List (List (String × Callable))) (name : String) : Value → Option Method
  | .helper _ number => ((ready.getD number []).find? (·.1 == name)).map (.callable ·.2)
  | .built helperClass _ number => classMethod? helperClass number name
  | _ => none

/-- The method of a name of the first helper that provides one. -/
def findMethod? (container : Container) (ready : List (List (String × Callable)))
    (name : String) : Option Method :=
  container.helpers.findSome? fun entry => methodOf? ready name entry.2

end Container

end FeatureRunner
