import FeatureRunner.Path
import FeatureRunner.Report.Junit
import FeatureRunner.Report.Page
import FeatureRunner.Value.Json

/-!
Reports: results written in one of three formats to a file that is named for the present.
-/

namespace FeatureRunner
open FeatureRunner.Calendar

inductive ReportFormat
  | html
  | json
  | junit
  deriving DecidableEq, Repr

namespace ReportFormat

def all : List ReportFormat := [html, json, junit]

def name : ReportFormat → String
  | html => "html"
  | json => "json"
  | junit => "junit"

def ofName? (name : String) : Option ReportFormat :=
  all.find? (·.name == name)

/-- The suffix of a report's file. -/
def suffix : ReportFormat → String
  | html => ".html"
  | json => ".json"
  | junit => ".xml"

/-- The text of a report. -/
def write (format : ReportFormat) (timestamp : String) (results : Value) : Except Fault String :=
  match format with
  | html => return Chunk.writeAll (← Page.chunks timestamp results)
  | json => reportJson.write 0 results
  | junit => return Chunk.writeAll (← Junit.chunks results)

end ReportFormat

/-- A file that was written. -/
structure WrittenFile where
  path : Path
  content : String
  deriving DecidableEq, Repr

/-- The report on some results in a format given by its name, in a directory. -/
def generateReport (clock : Moment) (directory : Path) (results : Value) (formatName : String) :
    Except Fault WrittenFile :=
  match ReportFormat.ofName? formatName with
  | some format => do
    let content ← format.write clock.stamp results
    let file := "report_" ++ clock.stamp ++ format.suffix
    return ⟨directory.append (.ofText file), content⟩
  | none => .error (.reportFormat formatName)

end FeatureRunner
