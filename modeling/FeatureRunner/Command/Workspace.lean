import FeatureRunner.Command.Arguments
import FeatureRunner.Config
import FeatureRunner.Reporting
import FeatureRunner.Suite.Compile
import FeatureRunner.World.Loop

/-!
What a command works on: the files, the step files with what loading them does, the registry and
the world, and what was printed and written. Commands end early by leaving or by a failure that
escapes them.
-/

namespace FeatureRunner.Command
open FeatureRunner.Calendar

/-- A definition that a step file registers while it is loaded. -/
structure Registration where
  keyword : String
  pattern : Value
  callable : Callable
  description : String

/-- A step file: what it registers at once, its marked functions, and the fault that ends loading
it, if any. -/
structure StepFile where
  /-- The parts of its path below the root of the file tree. -/
  path : List String
  registrations : List Registration
  functions : List MarkedFunction
  failure : Option Fault

structure Workspace where
  world : World
  registry : Registry
  tree : FileTree
  home : Path
  /-- The path of a configuration that the environment names. -/
  namedConfig : Option String
  stepFiles : List StepFile
  output : String
  errors : String
  written : List WrittenFile

/-- Why a command ends early. -/
inductive Stop
  | leave (code : Nat)
  | escape (failure : Failure)

/-- A command: it changes the workspace and may end early. -/
abbrev Work (α : Type) := Workspace → Except Stop α × Workspace

namespace Work

instance : Monad Work where
  pure value := fun workspace => (.ok value, workspace)
  bind work further := fun workspace =>
    match work workspace with
    | (.ok value, workspace) => further value workspace
    | (.error stop, workspace) => (.error stop, workspace)

def get : Work Workspace := fun workspace => (.ok workspace, workspace)

def update (change : Workspace → Workspace) : Work Unit :=
  fun workspace => (.ok (), change workspace)

def stop {α : Type} (reason : Stop) : Work α :=
  fun workspace => (.error reason, workspace)

def fail {α : Type} (fault : Fault) : Work α :=
  stop (.escape (.fault fault))

def ofExcept {α : Type} : Except Fault α → Work α
  | .ok value => pure value
  | .error fault => fail fault

/-- Handles a fault that escapes. -/
def rescue {α : Type} (work : Work α) (handler : Fault → Work α) : Work α := fun workspace =>
  match work workspace with
  | (.error (.escape (.fault fault)), workspace) => handler fault workspace
  | result => result

/-- Changes the workspace at the end of some work, however it ends. -/
def finishing {α : Type} (work : Work α) (change : Workspace → Workspace) : Work α := fun workspace =>
  let (result, workspace) := work workspace
  (result, change workspace)

/-- Prints a line. -/
def echo (line : String) : Work Unit :=
  update fun workspace => { workspace with output := workspace.output ++ line ++ "\n" }

/-- Prints a line on the error output. -/
def echoError (line : String) : Work Unit :=
  update fun workspace => { workspace with errors := workspace.errors ++ line ++ "\n" }

/-- Reports an error and leaves. -/
def abort {α : Type} (message : String) : Work α := do
  echoError ("Error: " ++ message)
  stop (.leave 1)

def registry : Work Registry := fun workspace => (.ok workspace.registry, workspace)

def tree : Work FileTree := fun workspace => (.ok workspace.tree, workspace)

/-- Changes the registry, also when a fault is raised. -/
def onRegistry (change : Registry → Except Fault Unit × Registry) : Work Unit := fun workspace =>
  let (result, registry) := change workspace.registry
  (result.mapError fun fault => .escape (.fault fault), { workspace with registry := registry })

/-- Changes the world, also when a failure is raised. -/
def onWorld {α : Type} (change : World → Except Failure α × World) : Work α := fun workspace =>
  let (result, world) := change workspace.world
  (result.mapError .escape, { workspace with world := world })

/-- Registers definitions one by one. -/
def register : List Registration → Work Unit
  | [] => pure ()
  | registration :: rest => do
    let registry ← registry
    let extended ← ofExcept (registry.add registration.keyword registration.pattern
      registration.callable registration.description)
    update ({ · with registry := extended })
    register rest

/-- Loads a step file: its registrations, and unless it fails then, its marked functions. -/
def loadFile (file : StepFile) : Work Unit := do
  register file.registrations
  match file.failure with
  | some fault => fail fault
  | none => onRegistry fun registry => registry.addModule file.functions

/-- The end of the names of step files. -/
def stepFileEnding : String := ".py"

/-- The step files at a path: the file itself, or all below a directory. -/
def filesAt (path : Path) : Work (List Path) := do
  let tree ← tree
  if tree.isDirectory path then return tree.filesBelow path stepFileEnding
  else if tree.has path then return [path]
  else fail (.stepsNotFound path.text)

/-- Loads what is at the path of a file. A file that is no step file cannot be loaded, and one of
which nothing is described does nothing. -/
def loadAt (path : Path) : Work Unit := do
  let workspace ← get
  match workspace.stepFiles.find? fun file => workspace.tree.locate? path == some file.path with
  | some file => loadFile file
  | none =>
    if path.suffix == stepFileEnding then pure ()
    else fail (.missingMember "NoneType" "loader")

def loadAll : List Path → Work Unit
  | [] => pure ()
  | path :: rest => do
    loadAt path
    loadAll rest

/-- The step files at some paths that are given as values. -/
def findAll : List Value → Work (List Path)
  | [] => pure []
  | .text path :: rest => do
    let found ← filesAt (.ofText path)
    return found ++ (← findAll rest)
  | value :: _ =>
    fail (.misuse ("expected str, bytes or os.PathLike object, not " ++ value.typeName))

/-- Loads the step files at some paths, once all of the paths are found, and answers how many
definitions they added. -/
def loadSteps (paths : List Value) : Work Nat := do
  let before := (← registry).definitions.length
  loadAll (← findAll paths)
  return (← registry).definitions.length - before

/-- The text of a file that is known to be there. -/
def readText (path : String) : Work String := do
  let tree ← tree
  let file := Path.ofText path
  match tree.read? file with
  | some text => return text
  | none => fail (.isDirectory file.text)

/-- Puts a written file in place of one with the same path. -/
def write (file : WrittenFile) : Work Unit :=
  update fun workspace => { workspace with
    written := workspace.written.filter (·.path != file.path) ++ [file] }

end Work

end FeatureRunner.Command
