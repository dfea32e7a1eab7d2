/-!
Tables that stand under a step, and the three views a step body takes of one.
-/

namespace FeatureRunner

/-- A heading row and the rows under it. A row may have more or fewer cells than the headings. -/
structure Table where
  headings : List String
  rows : List (List String)
  deriving DecidableEq, Repr

/-- Texts by key, in the order in which the keys were first put. -/
abbrev TextMap := List (String × String)

namespace TextMap

/-- Gives a key a text: in place if the key is known, else at the end. -/
def put (key text : String) : TextMap → TextMap
  | [] => [(key, text)]
  | (known, old) :: rest =>
    if known == key then (key, text) :: rest else (known, old) :: put key text rest

def ofList (entries : List (String × String)) : TextMap :=
  entries.foldl (fun map entry => map.put entry.1 entry.2) []

def get? (map : TextMap) (key : String) : Option String :=
  (map.find? (·.1 == key)).map (·.2)

end TextMap

namespace Table

/-- All rows, the headings first. -/
def raw (table : Table) : List (List String) :=
  table.headings :: table.rows

/-- Each row by heading, as far as both have cells; a later cell under the same heading wins. -/
def hashes (table : Table) : List TextMap :=
  table.rows.map fun row => .ofList (table.headings.zip row)

/-- The second column by the first, for a table that has two columns in every row. -/
def rowsHash? (table : Table) : Option TextMap :=
  if table.raw.all (·.length == 2) then
    some (.ofList (table.raw.map fun row => (row.getD 0 "", row.getD 1 "")))
  else none

end Table

end FeatureRunner
