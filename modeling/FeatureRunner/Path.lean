import FeatureRunner.Text.Blank

/-!
Paths of files: a root, if the path is absolute, and the parts below it. Empty parts and parts that
are a single point do not count.
-/

namespace FeatureRunner
open FeatureRunner.Text

structure Path where
  /-- Empty for a relative path, and else one slash or exactly two. -/
  root : String
  parts : List String
  deriving DecidableEq, Repr

namespace Path

/-- The root of a path by the slashes that it begins with: two are kept, any other number counts as
one. -/
def rootOf (text : List Char) : String :=
  match (text.takeWhile (· == '/')).length with
  | 0 => ""
  | 2 => "//"
  | _ => "/"

def ofText (text : String) : Path :=
  let pieces := (splitAt '/' text.toList).map String.ofList
  ⟨rootOf text.toList, pieces.filter fun piece => !piece.isEmpty && piece != "."⟩

/-- The text of a path; the path without parts is a point. -/
def text (path : Path) : String :=
  let below := "/".intercalate path.parts
  if path.root.isEmpty && path.parts.isEmpty then "." else path.root ++ below

/-- A path below another one, unless it is absolute. -/
def append (above below : Path) : Path :=
  if below.root.isEmpty then ⟨above.root, above.parts ++ below.parts⟩ else below

/-- The last part. -/
def name (path : Path) : String :=
  path.parts.getLastD ""

/-- The end of the last part from its last point on, if that is neither its first nor its last
character. -/
def suffix (path : Path) : String :=
  match cutAtLast? '.' path.name.toList with
  | some (before, after) =>
    if before.isEmpty || after.isEmpty then "" else String.ofList ('.' :: after)
  | none => ""

end Path

end FeatureRunner
