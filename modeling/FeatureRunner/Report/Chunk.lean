import FeatureRunner.Script
import FeatureRunner.Value.Display

/-!
Reports are lists of chunks: markup, which stands as it is, and content, which is written so that
it cannot be taken for markup. What goes into a report is looked up in results that need not have
it: what is missing is written as nothing and has no items.
-/

namespace FeatureRunner

/-- A piece of a report. -/
inductive Chunk
  | markup (text : String)
  | content (text : String)
  deriving DecidableEq, Repr

namespace Chunk

/-- How a character of content is written. -/
def escapeChar (c : Char) : List Char :=
  if c == '&' then "&amp;".toList
  else if c == '<' then "&lt;".toList
  else if c == '>' then "&gt;".toList
  else if c == '\'' then "&#39;".toList
  else if c == '"' then "&#34;".toList
  else [c]

/-- A text as content. -/
def escape (text : String) : String :=
  String.ofList (text.toList.flatMap escapeChar)

def write : Chunk → String
  | markup text => text
  | content text => escape text

/-- The text of a report. -/
def writeAll (chunks : List Chunk) : String :=
  String.join (chunks.map write)

end Chunk

/-- A value that may be missing. -/
abbrev Slot := Option Value

/-- What a value has under a name: an entry of a mapping. -/
def Value.member (value : Value) (name : String) : Slot :=
  match value with
  | .dict entries => Value.field? entries name
  | _ => none

namespace Slot

/-- The text of what is there. -/
def text : Slot → String
  | some value => value.display
  | none => ""

/-- The items of what is there. -/
def items : Slot → Except Fault (List Value)
  | some value => value.items?
  | none => .ok []

/-- Whether something is there that counts as true. -/
def holds : Slot → Bool
  | some value => value.truthy
  | none => false

/-- Whether what is there is a given text. -/
def isText (expected : String) : Slot → Bool
  | some (.text found) => found == expected
  | _ => false

end Slot

namespace Value

/-- The entries of a mapping. -/
def entries? : Value → Except Fault (List (Value × Value))
  | .dict entries => .ok entries
  | value => .error (.missingMember value.typeName "get")

/-- The value under a key of a mapping, or a default. -/
def getOr (value : Value) (key : String) (default : Value) : Except Fault Value := do
  return (field? (← value.entries?) key).getD default

end Value

end FeatureRunner
