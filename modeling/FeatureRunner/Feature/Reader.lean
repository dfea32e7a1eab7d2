import FeatureRunner.Fault
import FeatureRunner.Feature
import FeatureRunner.Feature.Line

/-!
Reading a feature from its text, line by line. What a line may be depends on the state that the
lines before it lead to; a line that fits no form of its state is a fault that names the state.
-/

namespace FeatureRunner
open FeatureRunner.Text FeatureRunner.Line

/-- What the next line may be. -/
inductive ReaderState
  | initial
  | feature
  | rule
  | taggable
  | scenario
  | background
  | steps
  /-- Inside a text under a step: its closing quotes, its indentation and its lines so far. -/
  | docString (quotes : List Char) (indentation : Nat) (lines : List (List Char))
  /-- Inside a table: its rows so far, and whether it belongs to examples. -/
  | table (rows : List (List String)) (ofExamples : Bool)

/-- The name of a state in messages. -/
def ReaderState.name : ReaderState → String
  | initial => "initial"
  | feature => "feature"
  | rule => "rule"
  | taggable => "taggable_statement"
  | scenario => "scenario"
  | background => "background"
  | steps => "steps"
  | docString .. => "multiline_text"
  | table .. => "table"

/-- Where a line stands. -/
structure Place where
  file : Option String
  number : Nat
  /-- The line without the white space at its ends. -/
  text : List Char

namespace Place

/-- A fault at a line that the message does not quote. -/
def fault {α : Type} (place : Place) (problem : String) : Except Fault α :=
  .error (.parse ⟨place.file, problem, place.number, none, none⟩)

/-- A fault at a line that the message quotes. -/
def faultQuoting {α : Type} (place : Place) (problem : String) (reason : Option String) :
    Except Fault α :=
  .error (.parse ⟨place.file, problem, place.number, some (String.ofList place.text), reason⟩)

end Place

/-- What has been read so far. -/
structure FeatureReader where
  state : ReaderState
  feature : Option Feature
  /-- The block that steps are added to, if any. -/
  block : Option BlockKind
  /-- The tags that the next block takes. -/
  tags : List String
  /-- Whether the block has a step that a further one can continue. -/
  hasStep : Bool

namespace FeatureReader

def initial : FeatureReader := ⟨.initial, none, none, [], false⟩

def updateFeature (change : Feature → Feature) (reader : FeatureReader) : FeatureReader :=
  { reader with feature := reader.feature.map change }

def updateSection (change : Section → Section) (reader : FeatureReader) : FeatureReader :=
  reader.updateFeature (Feature.updateLastSection change)

/-- The part that is being read. -/
def section? (reader : FeatureReader) : Option Section :=
  reader.feature.map Feature.lastSection

/-- The steps of the block that steps are added to. -/
def blockSteps (reader : FeatureReader) : List FeatureStep :=
  match reader.section?, reader.block with
  | some part, some .background => part.backgroundSteps
  | some part, some _ => ((part.scenarios.getLast?).map (·.steps)).getD []
  | _, _ => []

def addStep (step : FeatureStep) (reader : FeatureReader) : FeatureReader :=
  reader.updateSection (if reader.block == some .background then Section.addBackgroundStep step
    else Section.addScenarioStep step)

def updateLastStep (change : FeatureStep → FeatureStep) (reader : FeatureReader) : FeatureReader :=
  reader.updateSection (if reader.block == some .background then
      Section.updateBackgroundStep change
    else Section.updateScenarioStep change)

/-- Begins a feature, which takes the tags. -/
def beginFeature (name : String) (reader : FeatureReader) : FeatureReader :=
  { reader with
    state := .feature, feature := some ⟨name, reader.tags, [], .empty, []⟩
    block := some .feature, tags := [] }

/-- Begins a rule. Its tags have no effect. -/
def beginRule (reader : FeatureReader) : FeatureReader :=
  { reader.updateFeature fun feature => { feature with rules := feature.rules ++ [.empty] } with
    state := .rule, block := some .rule, tags := [] }

def beginBackground (reader : FeatureReader) : FeatureReader :=
  { reader.updateSection ({ · with background := some [] }) with
    state := .background, block := some .background }

/-- Begins a scenario or an outline, which takes the tags. -/
def beginScenario (kind : BlockKind) (keyword name : String) (reader : FeatureReader) :
    FeatureReader :=
  let scenario : Scenario := ⟨keyword, name, reader.tags, kind == .outline, []⟩
  { reader.updateSection fun part => { part with scenarios := part.scenarios ++ [scenario] } with
    state := .scenario, block := some kind, tags := [] }

/-- Begins examples, which only an outline has. -/
def beginExamples (place : Place) (reader : FeatureReader) : Except Fault FeatureReader :=
  if reader.block == some .outline then
    .ok { reader with state := .table [] true, tags := [] }
  else place.faultQuoting "Examples must only appear inside scenario outline" none

def readTags (place : Place) (reader : FeatureReader) (next : ReaderState) :
    Except Fault FeatureReader :=
  match Line.tags place.text with
  | .ok tags => .ok { reader with state := next, tags := reader.tags ++ tags }
  | .error word =>
    place.fault ("tag: " ++ String.ofList word ++ " (line: " ++ String.ofList place.text ++ ")")

/-- Reads tags or a block that may have tags; nothing if the line is neither. -/
def taggable? (place : Place) (reader : FeatureReader) : Option (Except Fault FeatureReader) :=
  if place.text.head? == some '@' then some (reader.readTags place .taggable)
  else if (block? .rule place.text).isSome then some (.ok reader.beginRule)
  else match block? .scenario place.text, block? .outline place.text with
    | some (keyword, name), _ => some (.ok (reader.beginScenario .scenario keyword name))
    | none, some (keyword, name) => some (.ok (reader.beginScenario .outline keyword name))
    | none, none =>
      if (block? .examples place.text).isSome then some (reader.beginExamples place) else none

/-- Whether there is a step that `And` and `But` can continue: one before it in its block, or one
in the background of its part, or of the feature. -/
def canContinue (reader : FeatureReader) : Bool :=
  reader.hasStep ||
    match reader.feature with
    | some feature =>
      !feature.lastSection.backgroundSteps.isEmpty || !feature.body.backgroundSteps.isEmpty
    | none => false

/-- Reads a step; nothing if the line is none. -/
def step? (place : Place) (reader : FeatureReader) : Option (Except Fault FeatureReader) :=
  (Line.step? place.text).map fun (keyword, text) =>
    if continuesStep keyword && !reader.canContinue then
      place.fault (keyword.map Char.toUpper ++
        "-STEP REQUIRES: An previous Given/When/Then step.")
    else .ok { reader.addStep ⟨keyword, text, none, none⟩ with state := .steps, hasStep := true }

/-- Why a line that begins a block is not expected. -/
def reason? (place : Place) (reader : FeatureReader) : Option String :=
  let begins := fun kind => (block? kind place.text).isSome
  let missing := reader.feature.isNone
  if begins .feature then
    some (if missing then "Feature should not be used here."
      else "Multiple features in one file are not supported.")
  else if begins .rule then some "Rule should not be used here."
  else if begins .background then
    some (if (reader.section?.map (·.scenarios.isEmpty)) == some false then
        "Background may not occur after Scenario/ScenarioOutline."
      else if !reader.tags.isEmpty then "Background does not support tags."
      else "Background should not be used here.")
  else if begins .scenario then
    some (if missing then "Scenario may not occur before Feature."
      else "Scenario should not be used here.")
  else if begins .outline then
    some (if missing then "ScenarioOutline may not occur before Feature."
      else "ScenarioOutline should not be used here.")
  else if missing then some "No feature found."
  else none

/-- The fault of a line that fits no form of its state. -/
def unexpected (place : Place) (reader : FeatureReader) : Except Fault FeatureReader :=
  place.faultQuoting ("\nParser failure in state=" ++ reader.state.name) (reader.reason? place)

/-- A line before the feature: tags, or the line that begins the feature. -/
def readInitial (place : Place) (reader : FeatureReader) : Except Fault FeatureReader :=
  if place.text.head? == some '@' then reader.readTags place .initial
  else match block? .feature place.text with
    | some (_, name) => .ok (reader.beginFeature name)
    | none => reader.unexpected place

/-- A line at the head of a feature or a rule. -/
def readHead (place : Place) (reader : FeatureReader) (describe : Feature → Feature) :
    Except Fault FeatureReader :=
  match reader.taggable? place with
  | some result => result
  | none =>
    if (block? .background place.text).isSome then .ok reader.beginBackground
    else .ok (reader.updateFeature describe)

/-- A line at the head of a scenario or a background: a step, a next block or a description. -/
def readBlock (place : Place) (reader : FeatureReader) : Except Fault FeatureReader :=
  let fresh := { reader with hasStep := false }
  match fresh.step? place with
  | some result => result
  | none => (fresh.taggable? place).getD (.ok fresh)

/-- The three quotes that a line begins with. -/
def quotes? (text : List Char) : Option (List Char) :=
  let start := text.take 3
  if start == ['"', '"', '"'] || start == ['\'', '\'', '\''] then some start else none

/-- A row of a table: the headings, or cells in their number. -/
def readRow (place : Place) (rows : List (List String)) (ofExamples : Bool)
    (reader : FeatureReader) : Except Fault FeatureReader :=
  let cells := cells place.text
  match rows with
  | headings :: _ =>
    if cells.length == headings.length then
      .ok { reader with state := .table (rows ++ [cells]) ofExamples }
    else place.fault "Malformed table"
  | [] => .ok { reader with state := .table [cells] ofExamples }

/-- A line after a step. -/
def readSteps (place : Place) (indentation : Nat) (reader : FeatureReader) :
    Except Fault FeatureReader :=
  match quotes? place.text with
  | some quotes =>
    if reader.blockSteps.isEmpty then place.fault "Multi-line text before any step"
    else .ok { reader with state := .docString quotes indentation [] }
  | none =>
    match reader.step? place with
    | some result => result
    | none =>
      match reader.taggable? place with
      | some result => result
      | none =>
        if place.text.head? == some '|' then
          if reader.blockSteps.isEmpty then
            place.fault "TABLE-START without step detected."
          else reader.readRow place [] false
        else reader.unexpected place

/-- Gives a table to the step that it stands under; one of examples has no effect. -/
def closeTable (rows : List (List String)) (ofExamples : Bool) (reader : FeatureReader) :
    FeatureReader :=
  match rows, ofExamples with
  | headings :: rows, false =>
    reader.updateLastStep ({ · with table := some ⟨headings, rows⟩ })
  | _, _ => reader

/-- Gives the lines of a text to the step that it stands under. -/
def closeDocString (lines : List (List Char)) (reader : FeatureReader) : FeatureReader :=
  let text := String.ofList (['\n'].intercalate lines)
  { reader.updateLastStep ({ · with docString := some text }) with state := .steps }

/-- A line of a text under a step, without the indentation of its quotes. -/
def readDocString (place : Place) (raw quotes : List Char) (indentation : Nat)
    (lines : List (List Char)) (reader : FeatureReader) : Except Fault FeatureReader :=
  if (dropBeginning? quotes place.text).isSome then .ok (reader.closeDocString lines)
  else
    let cut := raw.take indentation
    if !(strip cut).isEmpty then
      place.fault ("BAD-INDENT in multiline text: Line '" ++ String.ofList raw ++
        "' would strip leading '" ++ String.ofList cut ++ "'")
    else
      let line := stripRight (raw.drop indentation)
      .ok { reader with state := .docString quotes indentation (lines ++ [line]) }

/-- The language that a comment names. -/
def language? (text : List Char) : Option String :=
  (dropKeyword? "language:".toList (stripLeft text.tail)).map (String.ofList <| strip ·)

/-- A comment. Before everything else it may name the language, of which only English is known. -/
def readComment (text : List Char) (reader : FeatureReader) : Except Fault FeatureReader :=
  match reader.state, reader.tags, language? text with
  | .initial, [], some language =>
    if language == "en" then .ok reader else .error (.unknownLanguage language)
  | _, _, _ => .ok reader

/-- Reads one line. Blank lines and comments count only in a text under a step. A text under a
step that follows a table has no indentation. -/
def readLine (file : Option String) (number : Nat) (raw : List Char) (reader : FeatureReader) :
    Except Fault FeatureReader :=
  let place : Place := ⟨file, number, strip raw⟩
  let indentation := (raw.takeWhile isBlank).length
  match reader.state with
  | .docString quotes indentation lines => reader.readDocString place raw quotes indentation lines
  | state =>
    if place.text.isEmpty then .ok reader
    else if place.text.head? == some '#' then reader.readComment place.text
    else match state with
      | .initial => reader.readInitial place
      | .feature => reader.readHead place fun feature =>
          { feature with description := feature.description ++ [String.ofList place.text] }
      | .rule => reader.readHead place id
      | .taggable => (reader.taggable? place).getD (reader.unexpected place)
      | .scenario | .background => reader.readBlock place
      | .steps => reader.readSteps place indentation
      | .table rows ofExamples =>
        if place.text.head? == some '|' then reader.readRow place rows ofExamples
        else ({ reader.closeTable rows ofExamples with state := .steps }).readSteps place 0
      | .docString .. => .ok reader

/-- Reads lines that are counted from a number. -/
def readLines (file : Option String) : Nat → List (List Char) → FeatureReader →
    Except Fault FeatureReader
  | _, [], reader => .ok reader
  | number, raw :: rest, reader => do
    readLines file (number + 1) rest (← reader.readLine file number raw)

/-- What has been read when there are no more lines. A text without closing quotes is lost. -/
def result (reader : FeatureReader) : Option Feature :=
  match reader.state with
  | .table rows ofExamples => (reader.closeTable rows ofExamples).feature
  | _ => reader.feature

end FeatureReader

/-- The feature that a text holds, or nothing if it holds none. -/
def Feature.read (text : String) (file : Option String) : Except Fault (Option Feature) := do
  return (← FeatureReader.initial.readLines file 1 (lines text.toList)).result

end FeatureRunner
