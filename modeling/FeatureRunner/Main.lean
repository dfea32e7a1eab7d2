import FeatureRunner.Command
import FeatureRunner.Description
import Std.Time.Zoned

/-!
The command line on a machine. The files that a command can reach are read into a tree, the command
runs on the tree, and then its reports are written and its output is printed. Step files hold their
definitions as described data.
-/

namespace FeatureRunner.Main
open FeatureRunner.Calendar FeatureRunner.Command

/-- The text of a file, unless it cannot be read as text. -/
def textOf? (path : Path) : IO (Option String) :=
  try return some (← IO.FS.readFile path.text)
  catch _ => return none

/-- The names in a directory; none for anything else. -/
def namesIn (path : Path) : IO (List String) :=
  try
    let directory ← IO.FS.realPath path.text
    return (← directory.readDir).toList.map (·.fileName)
  catch _ => return []

/-- How deep directories are looked through. -/
def depthBound : Nat := 24

/-- The text files at a path and below it, by the parts of their paths. -/
def gather : Nat → Path → IO (List (List String × String))
  | 0, _ => return []
  | depth + 1, path => do
    match ← textOf? path with
    | some text => return [(path.parts, text)]
    | none =>
      let names ← namesIn path
      return (← names.mapM fun name => gather depth (path.append ⟨"", [name]⟩)).flatten

/-- The present on the local clock. -/
def now : IO Moment := do
  let present ← Std.Time.PlainDateTime.now
  let date : Date := ⟨present.date.year.toNat, present.date.month.toNat, present.date.day.toNat⟩
  let seconds := (present.time.hour.toNat * 60 + present.time.minute.toNat) * 60 +
    present.time.second.toNat
  let microseconds := seconds * 1000000 + present.time.nanosecond.toNat / 1000
  return ⟨date.number * dayLength + microseconds, none⟩

/-- The step file that a file of a tree is, if its name and its text say so. -/
def stepFileOf? (file : List String × String) : Option (Description.Reading StepFile) :=
  if (file.1.getLastD "").endsWith Work.stepFileEnding then
    match Document.Json.read file.2 with
    | .ok description => some (Description.stepFile file.1 description)
    | .error _ => none
  else none

/-- What a command works on: everything below the working directory, the usual place of a
configuration in the home directory, and the paths among the arguments. -/
def workspace (arguments : List String) : IO Workspace := do
  let cwd := Path.ofText (← IO.currentDir).toString
  let home := Path.ofText ((← IO.getEnv "HOME").getD "/")
  let named ← IO.getEnv "BDD_CORE_CONFIG"
  let places := [cwd, home.append ⟨"", [".bdd-core"]⟩] ++
    ((named.toList ++ arguments).map Path.ofText).filter fun path =>
      !path.root.isEmpty && !cwd.parts.isPrefixOf path.parts
  let files := (← places.mapM (gather depthBound)).flatten
  let (stepFiles, helpers) := Description.Reading.run ((files.filterMap stepFileOf?).mapM id) []
  let world := { World.initial (← now) with readyHelpers := helpers }
  return ⟨world, .initial, ⟨cwd, files⟩, home, named, stepFiles, "", "", []⟩

/-- Writes a report, in a directory that is made if it is missing. -/
def put (file : WrittenFile) : IO Unit := do
  let directory : Path := { file.path with parts := file.path.parts.dropLast }
  IO.FS.createDirAll directory.text
  IO.FS.writeFile file.path.text file.content

/-- Runs a command and answers its exit code. -/
def run (arguments : List String) : IO Nat := do
  let (result, after) := runProgram arguments (← workspace arguments)
  let (code, escaped) := ending result
  after.written.forM put
  IO.print after.output
  IO.eprint after.errors
  match escaped with
  | some (.fault fault) => IO.eprintln (fault.kind.name ++ ": " ++ fault.message)
  | some .cancelled => IO.eprintln "cancelled"
  | none => pure ()
  return code

end FeatureRunner.Main

def main (arguments : List String) : IO UInt32 := do
  return (← FeatureRunner.Main.run arguments).toUInt32
