import FeatureRunner.Value

/-!
The text of a value: as it is shown inside messages, and as it stands on its own, where a text has
no quotes and a fault is its message.
-/

namespace FeatureRunner
open FeatureRunner.Text FeatureRunner.Number

namespace Value

def boolText (value : Bool) : String :=
  if value then "True" else "False"

/-- A list of texts in brackets, each in quotes. -/
def textsShown (texts : List String) : String :=
  "[" ++ ", ".intercalate (texts.map quoted) ++ "]"

def tableShown (table : Table) : String :=
  "DataTable(headings=" ++ textsShown table.headings ++ ", rows=[" ++
    ", ".intercalate (table.rows.map textsShown) ++ "])"

def regexShown (pattern : RegexText) : String :=
  "re.compile(" ++ quoted pattern.source ++
    (if pattern.ignoreCase then ", re.IGNORECASE)" else ")")

def faultShown (fault : Fault) : String :=
  fault.kind.name ++ "(" ++ (if fault.message.isEmpty then "" else quoted fault.message) ++ ")"

mutual

/-- A value as it is shown inside messages. -/
def shown : Value → String
  | null => "None"
  | bool value => boolText value
  | int value => toString value
  | float value => value.text
  | text value => quoted value
  | list items => "[" ++ ", ".intercalate (shownList items) ++ "]"
  | tuple [item] => "(" ++ item.shown ++ ",)"
  | tuple items => "(" ++ ", ".intercalate (shownList items) ++ ")"
  | dict entries => "\x7b" ++ ", ".intercalate (shownEntries entries) ++ "\x7d"
  | regex pattern => regexShown pattern
  | table content => tableShown content
  | fault cause => faultShown cause
  | cancellation => "CancelledError()"
  | other typeName => "<" ++ typeName ++ " object>"
  | helper label _ => "<" ++ label ++ " object>"
  | built helperClass .. => "<" ++ helperClass.name ++ " object>"
  | test card => "Test(title=" ++ quoted card.title ++ ")"
  | suite card => "Suite(title=" ++ quoted card.title ++ ")"
  | future _ => "<Task>"

def shownList : List Value → List String
  | [] => []
  | value :: rest => value.shown :: shownList rest

def shownEntries : List (Value × Value) → List String
  | [] => []
  | (key, value) :: rest => (key.shown ++ ": " ++ value.shown) :: shownEntries rest

end

/-- A value as it stands on its own. -/
def display : Value → String
  | text value => value
  | fault cause => cause.message
  | cancellation => ""
  | value => value.shown

end Value

end FeatureRunner
