import FeatureRunner.Document.Json
import FeatureRunner.Document.Yaml
import FeatureRunner.FileTree
import FeatureRunner.Pattern

/-!
The configuration: the mapping of a file laid over the defaults, read and changed by dotted keys.
-/

namespace FeatureRunner
open FeatureRunner.Text

/-- A configuration and the path that it was read from, or would have been. -/
structure Config where
  path : Path
  entries : List (Value × Value)

namespace Config

/-- What holds where a file says nothing. -/
def defaults : List (Value × Value) :=
  [(.text "general", .record [("log_level", .text "INFO")]),
   (.text "steps", .record [("whitespace", .text WhitespacePolicy.tolerant.name),
     ("paths", .list [])]),
   (.text "helpers", .dict []),
   (.text "report", .record [("formats", .list []), ("output_dir", .text "test-results")])]

mutual

/-- A value laid over another: two mappings are merged, and else the new value stands. -/
def overlay (base : Option Value) : Value → Value
  | .dict updates =>
    match base with
    | some (.dict entries) => .dict (merge entries updates)
    | _ => .dict updates
  | value => value

/-- A mapping with every entry of another laid over it. -/
def merge (base : List (Value × Value)) : List (Value × Value) → List (Value × Value)
  | [] => base
  | (key, value) :: rest =>
    merge (Value.alter key (fun old => overlay old value) base) rest

end

/-- The parts of a dotted key. -/
def keyParts (key : String) : List String :=
  (splitAt '.' key.toList).map String.ofList

/-- The value that the parts of a key lead to. -/
def walk? : List String → Value → Option Value
  | [], value => some value
  | part :: rest, .dict entries =>
    match Value.field? entries part with
    | some inner => walk? rest inner
    | none => none
  | _ :: _, _ => none

/-- The value under a dotted key, or nothing. -/
def get? (config : Config) (key : String) : Option Value :=
  walk? (keyParts key) (.dict config.entries)

def getD (config : Config) (key : String) (default : Value) : Value :=
  (config.get? key).getD default

/-- A part of the configuration; an empty mapping if it is missing. -/
def part (config : Config) (key : String) : Value :=
  config.getD key (.dict [])

/-- Whether a text stands somewhere in another. -/
def occursIn (part : List Char) : List Char → Bool
  | [] => part.isEmpty
  | c :: rest => part.isPrefixOf (c :: rest) || occursIn part rest

/-- Why no part can be put into what is no mapping. -/
def putRefusal : Value → Fault
  | .list _ => .misuse "list indices must be integers or slices, not str"
  | value => .misuse ("'" ++ value.typeName ++ "' object does not support item assignment")

/-- Why what is no mapping cannot be entered by a part. Texts, lists and tuples are asked first
whether they hold it: a part that they hold cannot be taken, and another cannot be put. -/
def enterRefusal (part : String) : Value → Fault
  | .text text =>
    if occursIn part.toList text.toList then .misuse "string indices must be integers, not 'str'"
    else putRefusal (.text text)
  | .tuple items =>
    if items.any (·.same (.text part)) then
      .misuse "tuple indices must be integers or slices, not str"
    else putRefusal (.tuple items)
  | .list items => putRefusal (.list items)
  | value => .misuse ("argument of type '" ++ value.typeName ++ "' is not iterable")

/-- Puts a value where the parts of a key lead, through mappings that are made where they are
missing. What was changed before a fault stays changed. -/
def assignAt (new : Value) : List String → Value → Except Fault Unit × Value
  | [], _ => (.ok (), new)
  | part :: rest, .dict entries =>
    let (result, inner) := assignAt new rest ((Value.field? entries part).getD (.dict []))
    (result, .dict (Value.put (.text part) inner entries))
  | [_], value => (.error (putRefusal value), value)
  | part :: _, value => (.error (enterRefusal part value), value)

/-- Puts a value under a dotted key: the result, and the configuration then. -/
def assign (config : Config) (key : String) (value : Value) : Except Fault Unit × Config :=
  match assignAt value (keyParts key) (.dict config.entries) with
  | (result, .dict entries) => (result, { config with entries := entries })
  | (result, _) => (result, config)

/-- The configuration with a value under a dotted key. -/
def set (config : Config) (key : String) (value : Value) : Except Fault Config :=
  match config.assign key value with
  | (.ok _, changed) => .ok changed
  | (.error fault, _) => .error fault

/-- Where a configuration is looked for. -/
structure Places where
  cwd : Path
  home : Path
  /-- A path that the environment names; an empty one does not count. -/
  named : Option String

/-- The path of a configuration that is not given one: the one that the environment names, or else
the first of the usual places that has a file, or else the last of them. -/
def defaultPath (places : Places) (tree : FileTree) : Path :=
  let hidden : Path := ⟨"", [".bdd-core", "config.yaml"]⟩
  let usual := [places.cwd.append ⟨"", ["bdd-core.yaml"]⟩, places.cwd.append hidden,
    places.home.append hidden]
  match places.named with
  | some path => if path.isEmpty then (usual.find? tree.has).getD (places.home.append hidden)
    else .ofText path
  | none => (usual.find? tree.has).getD (places.home.append hidden)

/-- The value that a configuration file holds, read in the format that its suffix names. -/
def readFile (path : Path) (text : String) : Except Fault Value :=
  if path.suffix == ".yaml" || path.suffix == ".yml" then Yaml.read text
  else if path.suffix == ".json" then Document.Json.read text
  else .error (.configFormat path.suffix)

/-- The configuration of a file, which may be missing or empty, over the defaults. -/
def ofFile (read : Path → String → Except Fault Value) (path : Path) (tree : FileTree) :
    Except Fault Config :=
  match tree.read? path with
  | some text => do
    match ← read path text with
    | .null => return ⟨path, defaults⟩
    | .dict entries => return ⟨path, merge defaults entries⟩
    | _ => .error (.configShape path.text)
  | none => if tree.isDirectory path then .error (.isDirectory path.text) else .ok ⟨path, defaults⟩

/-- A configuration whose white space policy is one. -/
def validate (config : Config) : Except Fault Config :=
  let whitespace := config.getD "steps.whitespace" .null
  match WhitespacePolicy.ofValue? whitespace with
  | some _ => .ok config
  | none => .error (.whitespaceSetting whitespace.shown)

/-- The path that is given, or else the usual one. -/
def chosenPath (places : Places) (tree : FileTree) : Option String → Path
  | some given => .ofText given
  | none => defaultPath places tree

/-- The configuration at a path, or where it is usual, by a reader of files. -/
def loadWith (read : Path → String → Except Fault Value) (places : Places) (tree : FileTree)
    (path : Option String) : Except Fault Config := do
  validate (← ofFile read (chosenPath places tree path) tree)

/-- Reads the configuration at a path, or where it is usual. -/
def load : Places → FileTree → Option String → Except Fault Config :=
  loadWith readFile

end Config

end FeatureRunner
