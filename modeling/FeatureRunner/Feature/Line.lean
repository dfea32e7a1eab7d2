import FeatureRunner.Text.Blank

/-!
The lines of a feature text: the keywords that begin blocks and steps, tags, and the cells of table
rows. All of these read a line without the white space at its ends.
-/

namespace FeatureRunner.Line
open FeatureRunner.Text

/-- The blocks of a feature text. -/
inductive BlockKind
  | feature
  | rule
  | background
  | scenario
  | outline
  | examples
  deriving DecidableEq, Repr

/-- The keywords that begin a block of a kind. -/
def BlockKind.keywords : BlockKind → List String
  | feature => ["Feature", "Business Need", "Ability"]
  | rule => ["Rule"]
  | background => ["Background"]
  | scenario => ["Example", "Scenario"]
  | outline => ["Scenario Outline", "Scenario Template"]
  | examples => ["Examples", "Scenarios"]

/-- The keyword and the name on a line that begins a block of a kind. -/
def block? (kind : BlockKind) (line : List Char) : Option (String × String) :=
  kind.keywords.findSome? fun keyword =>
    (dropBeginning? (keyword.toList ++ [':']) line).map fun rest =>
      (keyword, String.ofList (strip rest))

/-- The keywords of steps. -/
def stepKeywords : List String :=
  ["*", "Given", "When", "Then", "And", "But"]

/-- The text after a beginning, whose letters may be upper or lower case. -/
def dropKeyword? : List Char → List Char → Option (List Char)
  | [], rest => some rest
  | _ :: _, [] => none
  | expected :: keyword, c :: rest =>
    if c.toLower == expected.toLower then dropKeyword? keyword rest else none

/-- The keyword and the text of a step line. -/
def step? (line : List Char) : Option (String × String) :=
  stepKeywords.findSome? fun keyword =>
    (dropKeyword? (keyword.toList ++ [' ']) line).map fun rest =>
      (keyword, String.ofList (strip rest))

/-- Whether a step keyword repeats the kind of the step before it. -/
def continuesStep (keyword : String) : Bool :=
  keyword == "And" || keyword == "But"

/-- The tags of some words up to a comment, or the first word that is no tag. -/
def tagsOf : List (List Char) → Except (List Char) (List String)
  | [] => .ok []
  | ('@' :: name) :: rest => do return String.ofList name :: (← tagsOf rest)
  | ('#' :: _) :: _ => .ok []
  | word :: _ => .error word

/-- The tags on a line, or the first word that is no tag. -/
def tags (line : List Char) : Except (List Char) (List String) :=
  tagsOf (words line)

/-- Cells between bars, the bars behind a backslash not counted. -/
def cut (before : Option Char) : List Char → List (List Char)
  | [] => [[]]
  | c :: rest =>
    if c == '|' && before != some '\\' then [] :: cut (some c) rest
    else match cut (some c) rest with
      | [] => [[c]]
      | cell :: others => (c :: cell) :: others

/-- A text with every bar that stands behind a backslash freed of it. -/
def freeBars : List Char → List Char
  | '\\' :: '|' :: rest => '|' :: freeBars rest
  | c :: rest => c :: freeBars rest
  | [] => []

/-- The cells of a table row: between its first and last character, cut at bars. -/
def cells (line : List Char) : List String :=
  (cut none line.tail.dropLast).map fun cell => String.ofList (strip (freeBars cell))

end FeatureRunner.Line
