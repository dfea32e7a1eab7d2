import FeatureRunner.Path

/-!
The files below a root, and the working directory among them. A directory is there if a file or the
working directory is below it.
-/

namespace FeatureRunner
open FeatureRunner.Text

structure FileTree where
  /-- The working directory, as an absolute path. -/
  cwd : Path
  /-- Every file by its parts below the root, with its text. -/
  files : List (List String × String)

namespace FileTree

/-- Whether the parts of a path lead to a directory. -/
def isDirectoryAt (tree : FileTree) (parts : List String) : Bool :=
  parts.isPrefixOf tree.cwd.parts || tree.files.any fun file =>
    parts.isPrefixOf file.1 && parts.length < file.1.length

/-- The parts of a path with every step upwards carried out, each from a directory that is there.
The parts before are given from the last. -/
def climb (tree : FileTree) : List String → List String → Option (List String)
  | before, [] => some before.reverse
  | before, part :: rest =>
    if part == ".." then
      match before with
      | _ :: above => if tree.isDirectoryAt before.reverse then climb tree above rest else none
      | [] => none
    else climb tree (part :: before) rest

/-- The parts of a path below the root. A relative path begins at the working directory. -/
def locate? (tree : FileTree) (path : Path) : Option (List String) :=
  if path.root.isEmpty then tree.climb tree.cwd.parts.reverse path.parts
  else if path.root == tree.cwd.root then tree.climb [] path.parts
  else none

/-- The text of a file. -/
def read? (tree : FileTree) (path : Path) : Option String := do
  let parts ← tree.locate? path
  let file ← tree.files.find? (·.1 == parts)
  return file.2

def isDirectory (tree : FileTree) (path : Path) : Bool :=
  (tree.locate? path).any tree.isDirectoryAt

def has (tree : FileTree) (path : Path) : Bool :=
  (tree.read? path).isSome || tree.isDirectory path

/-- The files below a directory whose name has an ending, ordered by the parts of their paths. -/
def filesBelow (tree : FileTree) (directory : Path) (ending : String) : List Path :=
  match tree.locate? directory with
  | none => []
  | some parts =>
    let inside := tree.files.filterMap fun file =>
      if parts.isPrefixOf file.1 && parts.length < file.1.length &&
          (file.1.getLastD "").endsWith ending then
        some (file.1.drop parts.length)
      else none
    (inside.mergeSort fun a b => !decide (b < a)).map fun below =>
      directory.append ⟨"", below⟩

end FileTree

end FeatureRunner
