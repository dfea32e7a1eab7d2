import FeatureRunner.Report.Chunk
import FeatureRunner.Report.Duration
import FeatureRunner.Text.LetterCase

/-!
The report as a page: the totals, and every feature with its scenarios and their steps. All that
comes from the results is content, so it never adds to the markup of the page.
-/

namespace FeatureRunner.Page
open FeatureRunner.Number

/-- The rules of the page's style, each as a selector and its declarations. -/
def styleRules : List (String × String) :=
  [("body", "font-family: Arial, sans-serif; margin: 20px; background-color: #f5f5f5;"),
   (".header", "background-color: #333; color: white; padding: 20px; border-radius: 5px;"),
   (".summary", "display: flex; gap: 20px; margin: 20px 0 30px 0;"),
   (".summary-card", "background: white; padding: 20px; border-radius: 5px; flex: 1; " ++
      "text-align: center;"),
   (".number", "font-size: 36px; font-weight: bold;"),
   (".passed", "color: #28a745;"),
   (".failed", "color: #dc3545;"),
   (".skipped", "color: #ffc107;"),
   (".feature", "background: white; margin-bottom: 20px; border-radius: 5px; overflow: hidden;"),
   (".feature-header", "background: #f8f9fa; padding: 15px 20px; " ++
      "border-bottom: 1px solid #dee2e6;"),
   (".scenario", "padding: 15px 20px; border-bottom: 1px solid #eee;"),
   (".scenario-name", "font-weight: bold;"),
   (".step", "margin-left: 20px; padding: 5px 0; font-family: monospace; font-size: 14px;"),
   (".error", "background-color: #f8d7da; color: #721c24; padding: 10px; " ++
      "margin: 10px 0 10px 20px;"),
   (".tag", "background-color: #e9ecef; padding: 2px 6px; border-radius: 3px; font-size: 11px;")]

def styleRule (rule : String × String) : String :=
  "        " ++ rule.1 ++ " \x7b " ++ rule.2 ++ " \x7d\n"

/-- The share of passed tests in percent with one decimal place; 0 without tests. -/
def passRate (total passed : Value) : Except Fault Value := do
  if ← total.greater (.int 0) then
    match passed.number?, total.number? with
    | some part, some whole =>
      return .float ((((quotient part whole).mul (.ofInt 100)).roundPlaces 1))
    | _, _ => .error (.misuse ("unsupported operand type(s) for /: '" ++ passed.typeName ++
        "' and '" ++ total.typeName ++ "'"))
  else return .int 0
where
  asReal : Int ⊕ Binary64 → Binary64
    | .inl whole => .ofInt whole
    | .inr real => real
  quotient : Int ⊕ Binary64 → Int ⊕ Binary64 → Binary64
    | .inl part, .inl whole =>
      .ofQuotient (part * whole < 0) part.natAbs whole.natAbs
    | part, whole => (asReal part).div (asReal whole)

/-- Seconds with three decimal places. -/
def secondsText : Value → String
  | .float seconds => seconds.fixedText 3 ++ "s"
  | _ => "0.000s"

/-- The page up to the report's own time. -/
def opening (timestamp : String) : List Chunk :=
  [.markup ("<!DOCTYPE html>\n<html>\n<head>\n    <meta charset=\"UTF-8\">\n" ++
    "    <title>Test Execution Report - "), .content timestamp,
   .markup ("</title>\n    <style>\n" ++ String.join (styleRules.map styleRule) ++
    "    </style>\n</head>\n<body>\n    <div class=\"header\">\n" ++
    "        <h1>Test Execution Report</h1>\n        <p>Generated: "), .content timestamp]

/-- A card with one number of the summary. -/
def card (label mark unit : String) (number : Slot) : List Chunk :=
  [.markup ("        <div class=\"summary-card\"><h3>" ++ label ++ "</h3><div class=\"" ++ mark ++
    "\">"), .content number.text, .markup (unit ++ "</div></div>\n")]

/-- The duration and the summary. -/
def overview (seconds : String) (summary rate : Value) : List Chunk :=
  [.markup "</p>\n        <p>Duration: ", .content seconds,
   .markup "</p>\n    </div>\n\n    <div class=\"summary\">\n"] ++
    card "Total Tests" "number" "" (summary.member "total") ++
    card "Passed" "number passed" "" (summary.member "passed") ++
    card "Failed" "number failed" "" (summary.member "failed") ++
    card "Skipped" "number skipped" "" (summary.member "skipped") ++
    card "Pass Rate" "number" "%" (some rate) ++
    [.markup "    </div>\n\n    "]

def tagChunks (tag : Value) : List Chunk :=
  [.markup "<span class=\"tag\">@", .content tag.display, .markup "</span>"]

def stepChunks (step : Value) : List Chunk :=
  [.markup "\n            <div class=\"step\">", .content (step.member "keyword").text, .markup " ",
   .content (step.member "name").text, .markup "</div>\n            "]

/-- The error of a scenario, if it has one that counts as true. -/
def errorChunks (error : Slot) : List Chunk :=
  if error.holds then
    [.markup "<div class=\"error\">", .content error.text, .markup "</div>"]
  else []

def scenarioChunks (scenario : Value) : Except Fault (List Chunk) := do
  let status := (scenario.member "status").text
  let tags ← (scenario.member "tags").items
  let steps ← (scenario.member "steps").items
  return [.markup ("\n        <div class=\"scenario\">\n" ++
        "            <span class=\"scenario-name\">"), .content (scenario.member "name").text,
      .markup "</span>\n            <span class=\"", .content status, .markup "\">",
      .content (Text.upper status), .markup "</span>\n            "] ++
    tags.flatMap tagChunks ++ [.markup "\n            "] ++ steps.flatMap stepChunks ++
    [.markup "\n            "] ++ errorChunks (scenario.member "error") ++
    [.markup "\n        </div>\n        "]

def featureChunks (feature : Value) : Except Fault (List Chunk) := do
  let scenarios ← (← (feature.member "scenarios").items).mapM scenarioChunks
  return [.markup ("\n    <div class=\"feature\">\n" ++
        "        <div class=\"feature-header "), .content (feature.member "status").text,
      .markup "\"><h2>", .content (feature.member "feature").text,
      .markup "</h2></div>\n        "] ++
    scenarios.flatten ++ [.markup "\n    </div>\n    "]

/-- The page for some results. -/
def chunks (timestamp : String) (results : Value) : Except Fault (List Chunk) := do
  let summary ← results.getOr "summary" (.dict [])
  let total ← summary.getOr "total" (.int 0)
  let passed ← summary.getOr "passed" (.int 0)
  let rate ← passRate total passed
  let seconds ← entriesDuration (← results.entries?)
  let features ← (← results.getOr "features" (.list [])).items?
  let shown ← features.mapM featureChunks
  return opening timestamp ++ overview (secondsText seconds) summary rate ++ shown.flatten ++
    [.markup "\n</body>\n</html>"]

end FeatureRunner.Page
