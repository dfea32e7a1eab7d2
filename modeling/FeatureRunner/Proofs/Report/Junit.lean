import FeatureRunner.Proofs.Pattern.Division
import FeatureRunner.Proofs.Report.Timing
import Mathlib.Data.List.Forall2

/-!
The text of the report as tags. A report on collected results is a declaration and then tags, each
behind some white space; what comes from the results stands in the values of attributes and is
written as content.

Main statement: `Junit.report_eq`.
-/

namespace FeatureRunner
open FeatureRunner.Calendar FeatureRunner.Number

/-! ## What mappings have -/

/-- The entries of a mapping; other values have none. -/
def entriesOf : Value → List (Value × Value)
  | .dict entries => entries
  | _ => []

theorem field?_entriesOf (value : Value) (key : String) :
    Value.field? (entriesOf value) key = value.member key := by
  cases value <;> rfl

theorem member_record (entries : List (String × Value)) (key : String) :
    (Value.record entries).member key = (entries.find? (·.1 == key)).map (·.2) := by
  simp only [Value.member, Value.record, Value.field?, Value.lookup?, List.find?_map, Option.map_map,
    Function.comp_def]
  congr 2

theorem getOr_record {entries : List (String × Value)} {key : String} {found : Value}
    (known : (Value.record entries).member key = some found) (default : Value) :
    (Value.record entries).getOr key default = .ok found := by
  change Except.ok (((Value.record entries).member key).getD default) = _
  rw [known]
  rfl

theorem find?_optional (key other : String) (text : Option String) :
    (Results.optional key text).find? (·.1 == other) =
      if key = other then text.map fun text => (key, .text text) else none := by
  cases text with
  | none => simp [Results.optional]
  | some text => by_cases same : key = other <;> simp [Results.optional, same]

@[simp] theorem display_text (text : String) : (Value.text text).display = text := rfl

@[simp] theorem text_some (value : Value) : Slot.text (some value) = value.display := rfl

/-! ## Durations -/

/-- What has been stamped twice has a duration, which is exact. -/
theorem duration_text {start finish : Moment} (dated : start.Dated) (dated' : finish.Dated) :
    duration (.text start.text) (.text finish.text) =
      .ok (.float (secondsOf ((finish.microseconds : Int) - start.microseconds))) := by
  have long (moment : Moment) : (Value.text moment.text).truthy = true := by
    have some : moment.text ≠ "" := by
      intro none
      have empty := moment.text_toList.symm.trans (congrArg String.toList none)
      exact List.append_ne_nil_of_right_ne_nil _ (List.cons_ne_nil _ _) empty
    simpa [Value.truthy] using some
  simp only [duration, long, Value.moment, Moment.read_text dated, Moment.read_text dated']
  rfl

/-- The seconds from a start to an end, if there is one. -/
def spanned (start : String) (finish : Option String) : Value :=
  ((duration (.text start) ((finish.map Value.text).getD .null)).toOption).getD .null

/-- Durations are a floating-point number, or zero where there is no end. -/
theorem spanned_cases {start : String} {finish : Option String} (stamp : Stamp start)
    (stamp' : ∀ time ∈ finish, Stamp time) :
    duration (.text start) ((finish.map Value.text).getD .null) = .ok (spanned start finish) ∧
      (spanned start finish = .int 0 ∨ ∃ seconds, spanned start finish = .float seconds) := by
  cases finish with
  | none =>
    have none : duration (.text start) .null = .ok (.int 0) := by simp [duration, Value.truthy]
    simp [spanned, none, Except.toOption]
  | some time =>
    obtain ⟨moment, dated, rfl⟩ := stamp
    obtain ⟨moment', dated', rfl⟩ := stamp' time rfl
    simp [spanned, duration_text dated dated', Except.toOption]

theorem entriesDuration_known (value : Value) {start : String} {finish : Option String}
    (begun : value.member "start_time" = some (.text start))
    (ended : value.member "end_time" = finish.map Value.text) (stamp : Stamp start)
    (stamp' : ∀ time ∈ finish, Stamp time) :
    entriesDuration (entriesOf value) = .ok (spanned start finish) := by
  rw [entriesDuration, field?_entriesOf, field?_entriesOf, begun, ended]
  exact (spanned_cases stamp stamp').1

/-! ## Numbers as they are written -/

/-- A character of a number. -/
def numeric (c : Char) : Bool :=
  c.isDigit || "+-.aefin".toList.contains c

theorem numeric_of_isDigit {c : Char} (digit : c.isDigit = true) : numeric c = true := by
  simp [numeric, digit]

theorem numeric_toDigits (number : Nat) : ∀ c ∈ Nat.toDigits 10 number, numeric c = true :=
  fun _ member => numeric_of_isDigit (Nat.isDigit_of_mem_toDigits (by decide) (by decide) member)

theorem numeric_replicate (count : Nat) : ∀ c ∈ List.replicate count '0', numeric c = true := by
  intro c member
  rw [List.eq_of_mem_replicate member]
  rfl

theorem numeric_shortest (significand : Nat) (exponent : Int) :
    ∀ c ∈ (shortest significand exponent).digits, numeric c = true := by
  intro c member
  simp only [shortest, List.mem_reverse] at member
  exact numeric_toDigits _ c (List.mem_reverse.1 ((List.dropWhile_sublist _).mem member))

theorem numeric_positional {decimal : Number.Decimal} (digits : ∀ c ∈ decimal.digits, numeric c = true) :
    ∀ c ∈ decimal.positional, numeric c = true := by
  unfold Number.Decimal.positional
  split
  · simp only [List.forall_mem_append, List.forall_mem_cons]
    exact ⟨⟨rfl, rfl, numeric_replicate _⟩, digits⟩
  · simp only [List.forall_mem_append, List.forall_mem_cons]
    refine ⟨⟨fun c member => digits c (List.mem_of_mem_take member), numeric_replicate _⟩, rfl, ?_⟩
    split
    · simp [numeric]
    · exact fun c member => digits c (List.mem_of_mem_drop member)

theorem numeric_scientific {decimal : Number.Decimal} (digits : ∀ c ∈ decimal.digits, numeric c = true) :
    ∀ c ∈ decimal.scientific, numeric c = true := by
  unfold Number.Decimal.scientific
  simp only [List.forall_mem_append, List.forall_mem_cons]
  refine ⟨⟨?_, rfl, ?_, numeric_replicate _⟩, numeric_toDigits _⟩
  · split
    · simp [numeric]
    · rename_i digit same
      exact same ▸ digits
    · rename_i digit rest _ same
      obtain ⟨first, others⟩ := List.forall_mem_cons.1 (same ▸ digits)
      exact List.forall_mem_cons.2 ⟨first, List.forall_mem_cons.2 ⟨rfl, others⟩⟩
  · split <;> rfl

theorem numeric_text (number : Binary64) : ∀ c ∈ number.text.toList, numeric c = true := by
  unfold Binary64.text Binary64.textIn plainStyle
  cases number with
  | nan => exact List.all_eq_true.1 (by decide)
  | infinity negative => cases negative <;> exact List.all_eq_true.1 (by decide)
  | finite negative significand exponent =>
    dsimp only
    rw [String.toList_append, String.toList_ofList, List.forall_mem_append]
    constructor
    · cases negative <;> exact List.all_eq_true.1 (by decide)
    · split
      · exact List.all_eq_true.1 (by decide)
      · split
        · exact numeric_positional (numeric_shortest _ _)
        · exact numeric_scientific (numeric_shortest _ _)

namespace Junit

/-! ## Tags -/

/-- A tag: its name, and its attributes with their values. -/
structure Tag where
  name : String
  attributes : List (String × String)
  deriving DecidableEq

/-- Characters as they are written in content. -/
def escaped (text : List Char) : List Char :=
  text.flatMap Chunk.escapeChar

/-- What stands between the angle brackets. -/
def Tag.write (tag : Tag) : List Char :=
  tag.name.toList ++ tag.attributes.flatMap fun (key, value) =>
    ' ' :: (key.toList ++ '=' :: '"' :: (escaped value.toList ++ ['"']))

/-- A tag that opens an element, closes one of a name, or is a whole element. -/
inductive Token
  | opens (tag : Tag)
  | closes (name : String)
  | stands (tag : Tag)

/-- A token behind some white space. -/
structure Piece where
  space : String
  token : Token

def Token.write : Token → List Char
  | opens tag => '<' :: (tag.write ++ ['>'])
  | closes name => '<' :: '/' :: (name.toList ++ ['>'])
  | stands tag => '<' :: (tag.write ++ ['/', '>'])

def Piece.write (piece : Piece) : List Char :=
  piece.space.toList ++ piece.token.write

/-- Pieces within an element: between the tag that opens it and the one that closes it, each of them
behind some white space. -/
def enclosed (space space' : String) (tag : Tag) (pieces : List Piece) : List Piece :=
  ⟨space, .opens tag⟩ :: pieces ++ [⟨space', .closes tag.name⟩]

theorem forall_mem_enclosed {holds : Piece → Prop} {space space' : String} {tag : Tag}
    {pieces : List Piece} :
    (∀ piece ∈ enclosed space space' tag pieces, holds piece) ↔
      (holds ⟨space, .opens tag⟩ ∧ holds ⟨space', .closes tag.name⟩) ∧
        ∀ piece ∈ pieces, holds piece := by
  rw [enclosed, List.cons_append, List.forall_mem_cons, List.forall_mem_append,
    List.forall_mem_singleton, and_assoc, and_comm (a := ∀ piece ∈ pieces, holds piece)]

/-! ## The tags of a report -/

/-- The time from a start to an end, as it is written. -/
def timeText (start : String) (finish : Option String) : String :=
  (spanned start finish).display

def caseTag (feature : String) (scenario : ScenarioResult) : Tag :=
  ⟨"testcase", [("classname", joinWords feature), ("name", scenario.name),
    ("time", timeText scenario.startTime scenario.endTime)]⟩

/-- The message of a scenario that has failed. -/
def message (scenario : ScenarioResult) : String :=
  scenario.error.getD "Test failed"

def standingPieces (scenario : ScenarioResult) : List Piece :=
  match scenario.status with
  | .failed => enclosed "\n            " "" ⟨"failure", [("message", message scenario)]⟩ []
  | .skipped => [⟨"\n            ", .stands ⟨"skipped", []⟩⟩]
  | _ => []

def casePieces (feature : String) (scenario : ScenarioResult) : List Piece :=
  enclosed "\n        " "\n        " (caseTag feature scenario) (standingPieces scenario)

/-- How many scenarios of a feature have failed. -/
def failures (feature : FeatureResult) : Nat :=
  (feature.scenarios.filter (·.status == .failed)).length

def suiteTag (feature : FeatureResult) : Tag :=
  ⟨"testsuite", [("name", feature.feature), ("tests", toString feature.scenarios.length),
    ("failures", toString (failures feature)),
    ("time", timeText feature.startTime feature.endTime)]⟩

def suitePieces (feature : FeatureResult) : List Piece :=
  enclosed "\n    " "\n    " (suiteTag feature) (feature.scenarios.flatMap (casePieces feature.feature))

def rootTag (now : String) (results : Results) : Tag :=
  ⟨"testsuites", [("name", "BDD Core Test Results"),
    ("time", timeText (results.startTime.getD now) (some (results.endTime.getD now))),
    ("tests", toString results.total), ("failures", toString (results.count .failed)),
    ("skipped", toString (results.count .skipped))]⟩

/-- All of a report but its declaration. -/
def pieces (now : String) (results : Results) : List Piece :=
  enclosed "\n" "\n" (rootTag now results) (results.features.flatMap suitePieces)

/-- What a report begins with. -/
def declaration : String :=
  "<?xml version=\"1.0\" encoding=\"UTF-8\"?>"

/-! ## The chunks of a report are its tags -/

/-- The characters of some chunks. -/
def written (chunks : List Chunk) : List Char :=
  chunks.flatMap fun chunk => chunk.write.toList

@[simp] theorem written_nil : written [] = [] := rfl

@[simp] theorem written_markup (text : String) (rest : List Chunk) :
    written (.markup text :: rest) = text.toList ++ written rest := rfl

@[simp] theorem written_content (text : String) (rest : List Chunk) :
    written (.content text :: rest) = escaped text.toList ++ written rest := by
  simp [written, Chunk.write, Chunk.escape, escaped]

@[simp] theorem written_append (first rest : List Chunk) :
    written (first ++ rest) = written first ++ written rest :=
  List.flatMap_append

theorem toList_writeAll (chunks : List Chunk) : (Chunk.writeAll chunks).toList = written chunks := by
  simp [Chunk.writeAll, written, List.flatMap_map]

/-- The characters that are written as entities. -/
def special : List Char := ['&', '<', '>', '\'', '"']

theorem escapeChar_plain {c : Char} (plain : c ∉ special) : Chunk.escapeChar c = [c] := by
  simp only [special, List.mem_cons, List.not_mem_nil, or_false, not_or] at plain
  simp [Chunk.escapeChar, plain]

/-- What has nothing to be escaped is written as it is. -/
theorem escaped_plain {text : List Char} (plain : ∀ c ∈ text, c ∉ special) : escaped text = text := by
  induction text with
  | nil => rfl
  | cons c text ih =>
    obtain ⟨first, rest⟩ := List.forall_mem_cons.1 plain
    rw [escaped, List.flatMap_cons, escapeChar_plain first]
    exact congrArg (c :: ·) (ih rest)

theorem escaped_numeric {text : List Char} (numbers : ∀ c ∈ text, numeric c = true) :
    escaped text = text := by
  have apart : ∀ c ∈ special, numeric c = false := by simp [special, numeric]
  refine escaped_plain fun c member known => ?_
  simpa [apart c known] using numbers c member

theorem escaped_toDigits (number : Nat) : escaped (Nat.toDigits 10 number) = Nat.toDigits 10 number :=
  escaped_numeric (numeric_toDigits number)

theorem numeric_time {start : String} {finish : Option String} (stamp : Stamp start)
    (stamp' : ∀ time ∈ finish, Stamp time) :
    ∀ c ∈ (timeText start finish).toList, numeric c = true := by
  rcases (spanned_cases stamp stamp').2 with zero | ⟨seconds, known⟩
  · rw [timeText, zero]
    exact List.all_eq_true.1 (by decide)
  · rw [timeText, known]
    exact numeric_text seconds

theorem escaped_time {start : String} {finish : Option String} (stamp : Stamp start)
    (stamp' : ∀ time ∈ finish, Stamp time) :
    escaped (timeText start finish).toList = (timeText start finish).toList :=
  escaped_numeric (numeric_time stamp stamp')

open Results

section Cases

variable (scenario : ScenarioResult)

/-- A scenario as a case. -/
def caseOf : Case :=
  ⟨entriesOf (scenarioValue scenario), spanned scenario.startTime scenario.endTime⟩

theorem member_caseOf (key : String) :
    (caseOf scenario).member key = (scenarioValue scenario).member key :=
  field?_entriesOf (scenarioValue scenario) key

theorem case_name : (caseOf scenario).member "name" = some (.text scenario.name) := by
  simp [member_caseOf, scenarioValue, member_record]

theorem case_status : (caseOf scenario).member "status" = some (.text scenario.status.name) := by
  simp [member_caseOf, scenarioValue, member_record]

theorem case_error : (caseOf scenario).member "error" = scenario.error.map Value.text := by
  simp [member_caseOf, scenarioValue, member_record, find?_optional, Function.comp_def]

theorem isText_failed (status : ScenarioStatus) :
    Slot.isText "failed" (some (.text status.name)) = (status == .failed) := by
  cases status <;> decide

theorem isText_skipped (status : ScenarioStatus) :
    Slot.isText "skipped" (some (.text status.name)) = (status == .skipped) := by
  cases status <;> decide

variable {scenario}

theorem ofScenario_eq (timed : scenario.Timed) :
    Case.ofScenario (scenarioValue scenario) = .ok (caseOf scenario) := by
  have known := entriesDuration_known (scenarioValue scenario)
    (by simp [scenarioValue, member_record])
    (by simp [scenarioValue, member_record, find?_optional, Function.comp_def]) timed.start timed.finish
  change (entriesDuration (entriesOf (scenarioValue scenario)) >>= _) = _
  rw [known]
  rfl

theorem written_statusChunks (scenario : ScenarioResult) : written (statusChunks (caseOf scenario)) =
    (standingPieces scenario).flatMap Piece.write := by
  rw [statusChunks, case_status, case_error, standingPieces, isText_failed, isText_skipped]
  cases scenario.status with
  | failed => simp [enclosed, Piece.write, Token.write, Tag.write, message]
  | _ => rfl

theorem written_caseChunks (timed : scenario.Timed) (feature : String) :
    written (caseChunks (some (.text feature)) (caseOf scenario)) =
      (casePieces feature scenario).flatMap Piece.write := by
  have time : (caseOf scenario).duration.display = timeText scenario.startTime scenario.endTime := rfl
  simp [caseChunks, casePieces, enclosed, Piece.write, Token.write, Tag.write, caseTag, time, case_name,
    escaped_time timed.start timed.finish, written_statusChunks]

end Cases

/-- A pass that succeeds on each of some items. -/
theorem mapM_map_ok {α β γ : Type} {items : List α} {known : α → β} {f : β → Except Fault γ}
    {made : α → γ} (each : ∀ item ∈ items, f (known item) = .ok (made item)) :
    (items.map known).mapM f = .ok (items.map made) := by
  rw [mapM_ok_iff, List.forall₂_map_left_iff, List.forall₂_map_right_iff, List.forall₂_same]
  exact each

section Groups

variable (feature : FeatureResult)

/-- A feature as a suite. -/
def groupOf : CaseGroup :=
  ⟨entriesOf (featureValue feature), feature.scenarios.map caseOf, failures feature,
    spanned feature.startTime feature.endTime⟩

variable {feature}

theorem ofFeature_eq (timed : feature.Timed) :
    CaseGroup.ofFeature (featureValue feature) = .ok (groupOf feature) := by
  have known := entriesDuration_known (featureValue feature)
    (by simp [featureValue, member_record])
    (by simp [featureValue, member_record, find?_optional, Function.comp_def]) timed.start timed.finish
  have scenarios : (featureValue feature).getOr "scenarios" (.list []) =
      .ok (.list (feature.scenarios.map scenarioValue)) := getOr_record (by simp [member_record]) _
  have cases : (feature.scenarios.map scenarioValue).mapM Case.ofScenario =
      .ok (feature.scenarios.map caseOf) :=
    mapM_map_ok fun scenario member => ofScenario_eq (timed.scenarios scenario member)
  have failed : ((feature.scenarios.map caseOf).filter fun case =>
      (case.member "status").isText "failed").length = failures feature := by
    simp only [List.filter_map, List.length_map, Function.comp_def, case_status, isText_failed, failures]
  unfold CaseGroup.ofFeature
  rw [scenarios]
  change ((feature.scenarios.map scenarioValue).mapM Case.ofScenario >>= _) = _
  rw [cases]
  change (entriesDuration (entriesOf (featureValue feature)) >>= _) = _
  rw [known, failed]
  rfl

theorem written_flatMap {α : Type} {items : List α} {chunks : α → List Chunk} {pieces : α → List Piece}
    (each : ∀ item ∈ items, written (chunks item) = (pieces item).flatMap Piece.write) :
    written (items.flatMap chunks) = (items.flatMap pieces).flatMap Piece.write := by
  rw [written, List.flatMap_assoc, List.flatMap_assoc]
  exact List.flatMap_congr each

theorem written_groupChunks (timed : feature.Timed) :
    written (groupChunks (groupOf feature)) = (suitePieces feature).flatMap Piece.write := by
  have time : (groupOf feature).duration.display = timeText feature.startTime feature.endTime := rfl
  have title : Value.field? (groupOf feature).entries "feature" = some (.text feature.feature) := by
    change Value.field? (entriesOf (featureValue feature)) "feature" = _
    rw [field?_entriesOf]
    simp [featureValue, member_record]
  have cases : written ((groupOf feature).cases.flatMap (caseChunks (some (.text feature.feature)))) =
      (feature.scenarios.flatMap (casePieces feature.feature)).flatMap Piece.write := by
    change written ((feature.scenarios.map caseOf).flatMap _) = _
    rw [List.flatMap_map]
    exact written_flatMap fun scenario member =>
      written_caseChunks (timed.scenarios scenario member) feature.feature
  have length : (groupOf feature).cases.length = feature.scenarios.length := List.length_map _
  have failed : (groupOf feature).failures = failures feature := rfl
  rw [groupChunks, title]
  simp [suitePieces, enclosed, Piece.write, Token.write, Tag.write, suiteTag, time,
    escaped_time timed.start timed.finish, escaped_toDigits, cases, length, failed]

end Groups

theorem summary_text (results : Results) (key : String) (number : Nat)
    (known : results.summaryValue.member key = some (.int number)) :
    (results.summaryValue.member key).text = toString number := by
  rw [known, text_some, Value.display, Value.shown]
  · rfl
  all_goals nofun

variable {now : String} {results : Results}

theorem chunks_value (stamp : Stamp now) (timed : results.Timed) :
    ∃ chunks, Junit.chunks (results.value now) = .ok chunks ∧
      written chunks = declaration.toList ++ (pieces now results).flatMap Piece.write := by
  have start := timed.start_getD stamp
  have finish := timed.finish_getD stamp
  have known := entriesDuration_known (results.value now)
    (by simp [Results.value, member_record]) (by simp [Results.value, member_record]) start finish
  have features : (results.value now).getOr "features" (.list []) =
      .ok (.list (results.features.map featureValue)) := getOr_record (by simp [member_record]) _
  have groups : (results.features.map featureValue).mapM CaseGroup.ofFeature =
      .ok (results.features.map groupOf) :=
    mapM_map_ok fun feature member => ofFeature_eq (timed.features feature member)
  have summary : (results.value now).getOr "summary" (.dict []) = .ok results.summaryValue :=
    getOr_record (by simp [member_record]) _
  have suites : written ((results.features.map groupOf).flatMap groupChunks) =
      (results.features.flatMap suitePieces).flatMap Piece.write := by
    rw [List.flatMap_map]
    exact written_flatMap fun feature member => written_groupChunks (timed.features feature member)
  unfold Junit.chunks
  rw [features]
  change ∃ chunks, ((results.features.map featureValue).mapM CaseGroup.ofFeature >>= _) = _ ∧ _
  rw [groups]
  change ∃ chunks, (entriesDuration (entriesOf (results.value now)) >>= _) = _ ∧ _
  rw [known, summary]
  refine ⟨_, rfl, ?_⟩
  have total := summary_text results "total" results.total
    (by simp [summaryValue, member_record])
  have failed := summary_text results "failed" (results.count .failed)
    (by simp [summaryValue, member_record])
  have skipped := summary_text results "skipped" (results.count .skipped)
    (by simp [summaryValue, member_record])
  have title : escaped "BDD Core Test Results".toList = "BDD Core Test Results".toList := by decide
  have time := escaped_time start finish
  have opening : "<?xml version=\"1.0\" encoding=\"UTF-8\"?>\n".toList =
    declaration.toList ++ ['\n'] := rfl
  simp only [written_append, written_markup, written_nil, String.toList_append, opening, suites, total,
    failed, skipped, pieces, enclosed, List.flatMap_append, List.flatMap_cons, Piece.write, Token.write,
    Tag.write, rootTag, title, time]
  simp [escaped_toDigits, timeText]

/-- The report on stamped results is a declaration and then tags. -/
theorem report_eq (clock : Moment) (directory : Path) (stamp : Stamp now) (timed : results.Timed) :
    ∃ file, generateReport clock directory (results.value now) "junit" = .ok file ∧
      file.content.toList = declaration.toList ++ (pieces now results).flatMap Piece.write := by
  obtain ⟨chunks, made, tags⟩ := chunks_value stamp timed
  have content : ReportFormat.junit.write clock.stamp (results.value now) =
      .ok (Chunk.writeAll chunks) := by
    rw [ReportFormat.write, made]
    rfl
  have format : ReportFormat.ofName? "junit" = some .junit := by decide
  refine ⟨⟨directory.append (.ofText ("report_" ++ clock.stamp ++ ReportFormat.junit.suffix)),
    Chunk.writeAll chunks⟩, ?_, (toList_writeAll chunks).trans tags⟩
  rw [generateReport, format]
  dsimp only
  rw [content]
  rfl

end Junit

end FeatureRunner
