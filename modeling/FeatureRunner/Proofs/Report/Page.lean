import FeatureRunner.Proofs.Report.ReadBack

/-!
The report as a page. A reader that knows only of angle brackets sees tags, each with the text behind
it. Pages on results of one shape have the same tags, and the same texts but for those that users
have written; these are seen where they belong, and without their entities they are what was written.

Main statement: `Page.markup_independent`.
-/

namespace FeatureRunner.Page
open FeatureRunner.Calendar FeatureRunner.Number
open FeatureRunner.Junit (escaped unescape unescape_escaped not_mem_escaped written written_append
  written_markup written_content written_nil)

/-! ## The reader -/

/-- A tag, from bracket to bracket with its attributes, and the text behind it up to the next one. -/
structure Cell where
  tag : String
  text : List Char
  deriving DecidableEq

/-- What the reader sees of a text: what is before the first tag, and the tags. -/
structure Reading where
  lead : List Char
  cells : List Cell
  deriving DecidableEq

def readCell (part : List Char) : Cell :=
  ⟨String.ofList (part.takeWhile (· != '>')), (part.dropWhile (· != '>')).tail⟩

/-- Takes in the character before what has been read: an opening bracket makes a tag of what is before
the others. -/
def Reading.add (c : Char) (reading : Reading) : Reading :=
  if c = '<' then ⟨[], readCell reading.lead :: reading.cells⟩
  else ⟨c :: reading.lead, reading.cells⟩

def read (text : List Char) : Reading :=
  text.foldr Reading.add ⟨[], []⟩

/-- The tags behind which users' texts stand: those of titles, names, tags, steps and errors. -/
def places : List String :=
  ["h2", "span class=\"scenario-name\"", "span class=\"tag\"", "div class=\"step\"",
    "div class=\"error\""]

/-- The cells with users' texts. -/
def Reading.given (reading : Reading) : List Cell :=
  reading.cells.filter (·.tag ∈ places)

/-- Cells with one tag and, unless it is one for a user's text, with one text. -/
structure Cell.Alike (cell other : Cell) : Prop where
  tag : cell.tag = other.tag
  text : cell.text = other.text ∨ cell.tag ∈ places

/-- What users have written, by the place in which it stands. -/
inductive UserText
  | title (user : String)
  | name (user : String)
  | tag (user : String)
  | step (keyword user : String)
  | error (user : String)
  deriving DecidableEq

/-- A text of the user stands in a cell: what was inserted there is the text once its entities are
replaced. -/
def UserText.ShownIn (cell : Cell) : UserText → Prop
  | title user => cell.tag = "h2" ∧ unescape cell.text = user.toList
  | name user => cell.tag = "span class=\"scenario-name\"" ∧ unescape cell.text = user.toList
  | tag user => cell.tag = "span class=\"tag\"" ∧
      ∃ inserted, cell.text = '@' :: inserted ∧ unescape inserted = user.toList
  | step keyword user => cell.tag = "div class=\"step\"" ∧
      ∃ first second, cell.text = first ++ ' ' :: second ∧ unescape first = keyword.toList ∧
        unescape second = user.toList
  | error user => cell.tag = "div class=\"error\"" ∧ unescape cell.text = user.toList

/-! ## Results of one shape -/

/-- The error of a scenario that is shown: one that is not empty. -/
def shownError (scenario : ScenarioResult) : Option String :=
  scenario.error.filter (· ≠ "")

/-- The users' texts of a scenario in the order in which the page has them. -/
def scenarioTexts (scenario : ScenarioResult) : List UserText :=
  .name scenario.name :: scenario.tags.map .tag ++
    scenario.steps.map (fun step => .step step.keyword step.text) ++
    (shownError scenario).toList.map .error

def featureTexts (feature : FeatureResult) : List UserText :=
  .title feature.feature :: feature.scenarios.flatMap scenarioTexts

def userTexts (results : Results) : List UserText :=
  results.features.flatMap featureTexts

/-- All of a scenario but its texts. -/
structure ScenarioShape where
  tags : Nat
  steps : Nat
  status : ScenarioStatus
  startTime : String
  endTime : Option String
  hasError : Bool
  deriving DecidableEq

structure FeatureShape where
  scenarios : List ScenarioShape
  failed : Bool
  startTime : String
  endTime : Option String
  deriving DecidableEq

structure Shape where
  features : List FeatureShape
  startTime : Option String
  endTime : Option String
  deriving DecidableEq

def scenarioShape (scenario : ScenarioResult) : ScenarioShape :=
  ⟨scenario.tags.length, scenario.steps.length, scenario.status, scenario.startTime, scenario.endTime,
    (shownError scenario).isSome⟩

def featureShape (feature : FeatureResult) : FeatureShape :=
  ⟨feature.scenarios.map scenarioShape, feature.failed, feature.startTime, feature.endTime⟩

/-- How many features, scenarios, tags and steps there are, how they stand and which have errors, and
all times. -/
def shape (results : Results) : Shape :=
  ⟨results.features.map featureShape, results.startTime, results.endTime⟩

/-! ## Reading from the left -/

namespace Reading

def prepend (text : List Char) (reading : Reading) : Reading :=
  { reading with lead := text ++ reading.lead }

/-- A cell before the rest; what is before the tags of the rest belongs to its text. -/
def push (cell : Cell) (reading : Reading) : Reading :=
  ⟨[], ⟨cell.tag, cell.text ++ reading.lead⟩ :: reading.cells⟩

/-- The text in which the reader sees some cells. -/
def text (reading : Reading) : List Char :=
  reading.lead ++ reading.cells.flatMap fun cell => '<' :: (cell.tag.toList ++ '>' :: cell.text)

/-- There are angle brackets around the tags only, and no place is for a user's text. -/
structure Plain (reading : Reading) : Prop where
  lead : '<' ∉ reading.lead
  cells : ∀ cell ∈ reading.cells, '<' ∉ cell.tag.toList ∧ '>' ∉ cell.tag.toList ∧
    '<' ∉ cell.text ∧ cell.tag ∉ places

instance (reading : Reading) : Decidable reading.Plain :=
  decidable_of_iff ('<' ∉ reading.lead ∧ ∀ cell ∈ reading.cells, '<' ∉ cell.tag.toList ∧
    '>' ∉ cell.tag.toList ∧ '<' ∉ cell.text ∧ cell.tag ∉ places)
    ⟨fun ⟨lead, cells⟩ => ⟨lead, cells⟩, fun ⟨lead, cells⟩ => ⟨lead, cells⟩⟩

structure Alike (reading other : Reading) : Prop where
  lead : reading.lead = other.lead
  cells : List.Forall₂ Cell.Alike reading.cells other.cells

theorem Alike.prepend {reading other : Reading} (alike : reading.Alike other) (text : List Char) :
    (reading.prepend text).Alike (other.prepend text) :=
  ⟨congrArg (text ++ ·) alike.lead, alike.cells⟩

theorem Alike.push {reading other : Reading} (alike : reading.Alike other) {cell cell' : Cell}
    (same : cell.Alike cell') : (reading.push cell).Alike (other.push cell') := by
  refine ⟨rfl, .cons ⟨same.tag, ?_⟩ alike.cells⟩
  rcases same.text with text | place
  · exact .inl (by simp only [text, alike.lead])
  · exact .inr place

end Reading

theorem read_append {text : List Char} (bare : '<' ∉ text) (rest : List Char) :
    read (text ++ rest) = (read rest).prepend text := by
  induction text with
  | nil => rfl
  | cons c text ih =>
    obtain ⟨other, bare⟩ := not_or.1 (List.mem_cons.not.1 bare)
    change (read (text ++ rest)).add c = _
    rw [ih bare, Reading.add, if_neg (Ne.symm other)]
    rfl

theorem read_cell (cell : Cell) (bare : '<' ∉ cell.tag.toList) (closed : '>' ∉ cell.tag.toList)
    (plain : '<' ∉ cell.text) (rest : List Char) :
    read ('<' :: (cell.tag.toList ++ '>' :: cell.text) ++ rest) = (read rest).push cell := by
  have inside : '<' ∉ cell.tag.toList ++ '>' :: cell.text := by simp [bare, plain]
  change (read (cell.tag.toList ++ '>' :: cell.text ++ rest)).add '<' = _
  rw [read_append inside, Reading.add, if_pos rfl]
  simp [Reading.prepend, Reading.push, readCell, Junit.takeWhile_ne closed, Junit.dropWhile_ne closed]

/-! ## Markup -/

/-- A text of whole tags, none of them for a user's text, and of other texts. -/
def Tidy (text : List Char) : Prop :=
  ∃ reading : Reading, reading.Plain ∧ reading.text = text

theorem Tidy.of_bare {text : List Char} (bare : '<' ∉ text) : Tidy text :=
  ⟨⟨text, []⟩, ⟨bare, nofun⟩, List.append_nil text⟩

theorem Tidy.escaped (text : List Char) : Tidy (escaped text) :=
  .of_bare (not_mem_escaped '<' (by decide) (by decide) text)

theorem Tidy.append {text other : List Char} (tidy : Tidy text) (tidy' : Tidy other) :
    Tidy (text ++ other) := by
  obtain ⟨⟨lead, cells⟩, ⟨bare, each⟩, rfl⟩ := tidy
  obtain ⟨reading, plain, rfl⟩ := tidy'
  have joined : ∃ joined : Reading, joined.Plain ∧
      joined.text = (cells.flatMap fun cell => '<' :: (cell.tag.toList ++ '>' :: cell.text)) ++
        reading.text := by
    clear bare
    induction cells with
    | nil => exact ⟨reading, plain, rfl⟩
    | cons cell cells ih =>
      obtain ⟨⟨bare, closed, text, other⟩, each⟩ := List.forall_mem_cons.1 each
      obtain ⟨joined, ⟨bare', each'⟩, same⟩ := ih each
      refine ⟨joined.push cell, ⟨List.not_mem_nil, List.forall_mem_cons.2 ⟨⟨bare, closed, ?_, other⟩,
        each'⟩⟩, ?_⟩
      · exact fun member => (List.mem_append.1 member).elim text bare'
      · rw [List.flatMap_cons, List.append_assoc, ← same]
        simp [Reading.text, Reading.push]
  obtain ⟨joined, ⟨bare', each'⟩, same⟩ := joined
  refine ⟨joined.prepend lead, ⟨fun member => (List.mem_append.1 member).elim bare bare', each'⟩, ?_⟩
  change lead ++ joined.lead ++ _ = lead ++ _ ++ _
  rw [List.append_assoc, List.append_assoc, ← same]
  rfl

/-- A text that is seen as it is. -/
theorem Tidy.of_read {text : List Char} (seen : (read text).Plain ∧ (read text).text = text) :
    Tidy text :=
  ⟨read text, seen⟩

theorem Tidy.read {text : List Char} (tidy : Tidy text) : ∃ reading : Reading, reading.Plain ∧
    ∀ rest, read (text ++ rest) = (reading.cells.foldr Reading.push (read rest)).prepend reading.lead := by
  obtain ⟨⟨lead, cells⟩, ⟨bare, each⟩, rfl⟩ := tidy
  refine ⟨⟨lead, cells⟩, ⟨bare, each⟩, fun rest => ?_⟩
  rw [Reading.text, List.append_assoc, read_append bare]
  congr 1
  clear bare
  induction cells with
  | nil => rfl
  | cons cell cells ih =>
    obtain ⟨⟨bare, closed, plain, -⟩, each⟩ := List.forall_mem_cons.1 each
    rw [List.flatMap_cons, List.append_assoc, read_cell _ bare closed plain]
    exact congrArg (Reading.push cell) (ih each)

theorem Tidy.alike {text rest rest' : List Char} (tidy : Tidy text)
    (alike : (Page.read rest).Alike (Page.read rest')) :
    (Page.read (text ++ rest)).Alike (Page.read (text ++ rest')) := by
  obtain ⟨⟨lead, cells⟩, -, seen⟩ := tidy.read
  rw [seen, seen]
  refine Reading.Alike.prepend ?_ lead
  clear seen
  induction cells with
  | nil => exact alike
  | cons cell cells ih => exact ih.push ⟨rfl, .inl rfl⟩

theorem Tidy.given {text : List Char} (tidy : Tidy text) (rest : List Char) :
    (Page.read (text ++ rest)).given = (Page.read rest).given := by
  obtain ⟨⟨lead, cells⟩, ⟨-, each⟩, seen⟩ := tidy.read
  rw [seen]
  change (cells.foldr Reading.push (Page.read rest)).given = _
  clear seen
  induction cells with
  | nil => rfl
  | cons cell cells ih =>
    obtain ⟨⟨-, -, -, other⟩, each⟩ := List.forall_mem_cons.1 each
    refine Eq.trans ?_ (ih each)
    exact List.filter_cons_of_neg (by simpa using other)

/-! ## Pages in bits -/

namespace UserText

/-- The tags around a text of the user. -/
def tags : UserText → String × String
  | title _ => ("h2", "/h2")
  | name _ => ("span class=\"scenario-name\"", "/span")
  | tag _ => ("span class=\"tag\"", "/span")
  | step .. => ("div class=\"step\"", "/div")
  | error _ => ("div class=\"error\"", "/div")

/-- What stands between the tags. -/
def inserted : UserText → List Char
  | title user | name user | error user => escaped user.toList
  | tag user => '@' :: escaped user.toList
  | step keyword user => escaped keyword.toList ++ ' ' :: escaped user.toList

def cell (text : UserText) : Cell :=
  ⟨text.tags.1, text.inserted⟩

theorem shownIn_cell (text : UserText) : text.ShownIn text.cell := by
  cases text with
  | title user => exact ⟨rfl, unescape_escaped _⟩
  | name user => exact ⟨rfl, unescape_escaped _⟩
  | tag user => exact ⟨rfl, _, rfl, unescape_escaped _⟩
  | step keyword user => exact ⟨rfl, _, _, rfl, unescape_escaped _, unescape_escaped _⟩
  | error user => exact ⟨rfl, unescape_escaped _⟩

theorem tags_places (text : UserText) : text.tags.1 ∈ places ∧ text.tags.2 ∉ places := by
  cases text <;> (dsimp only [tags]; decide)

theorem bare_tags (text : UserText) : ('<' ∉ text.tags.1.toList ∧ '>' ∉ text.tags.1.toList) ∧
    '<' ∉ text.tags.2.toList ∧ '>' ∉ text.tags.2.toList := by
  cases text <;> (dsimp only [tags]; decide)

theorem not_mem_inserted (text : UserText) : '<' ∉ text.inserted := by
  have content := not_mem_escaped '<' (by decide) (by decide)
  cases text <;> simp [inserted, content]

end UserText

/-- A piece of a page: what is there for every result of a shape, or an element with a text of the
user. -/
inductive Bit
  | fixed (text : List Char)
  | given (text : UserText)

namespace Bit

def write : Bit → List Char
  | fixed text => text
  | given text => '<' :: (text.tags.1.toList ++ '>' :: text.inserted) ++
      '<' :: (text.tags.2.toList ++ ['>'])

inductive Alike : Bit → Bit → Prop
  | fixed {text : List Char} (tidy : Tidy text) : Alike (fixed text) (fixed text)
  | given {text other : UserText} (tags : text.tags = other.tags) : Alike (given text) (given other)

theorem read_given (text : UserText) (rest : List Char) :
    read ((given text).write ++ rest) = ((read rest).push ⟨text.tags.2, []⟩).push text.cell := by
  obtain ⟨⟨bare, closed⟩, bare', closed'⟩ := text.bare_tags
  rw [write, List.append_assoc]
  exact (read_cell text.cell bare closed text.not_mem_inserted _).trans
    (congrArg _ (read_cell ⟨text.tags.2, []⟩ bare' closed' List.not_mem_nil rest))

theorem given_given (text : UserText) (rest : List Char) :
    (read ((given text).write ++ rest)).given = ⟨text.tags.1, text.inserted⟩ :: (read rest).given := by
  rw [read_given]
  change List.filter _ (⟨text.tags.1, text.inserted ++ []⟩ :: ⟨text.tags.2, _⟩ :: (read rest).cells) = _
  obtain ⟨place, other⟩ := text.tags_places
  rw [List.append_nil, List.filter_cons_of_pos (by simpa using place),
    List.filter_cons_of_neg (by simpa using other)]
  rfl

/-- Where the bits are alike, so is what the reader sees. -/
theorem read_alike {bits others : List Bit} (alike : List.Forall₂ Alike bits others) :
    (read (bits.flatMap write)).Alike (read (others.flatMap write)) := by
  induction alike with
  | nil => exact ⟨rfl, .nil⟩
  | cons first _ ih =>
    rw [List.flatMap_cons, List.flatMap_cons]
    cases first with
    | fixed tidy => exact tidy.alike ih
    | @given text other tags =>
      rw [read_given, read_given, ← tags]
      exact (ih.push ⟨rfl, .inl rfl⟩).push ⟨congrArg Prod.fst tags, .inr text.tags_places.1⟩

def text? : Bit → Option UserText
  | fixed _ => none
  | given text => some text

@[simp] theorem texts_fixed (text : List Char) (rest : List Bit) :
    (fixed text :: rest).filterMap text? = rest.filterMap text? := rfl

@[simp] theorem texts_given (text : UserText) (rest : List Bit) :
    (given text :: rest).filterMap text? = text :: rest.filterMap text? := rfl

/-- The users' texts are seen in the order of the bits. -/
theorem read_texts {bits others : List Bit} (alike : List.Forall₂ Alike bits others) :
    List.Forall₂ (fun cell text => UserText.ShownIn cell text) (read (bits.flatMap write)).given
      (bits.filterMap text?) := by
  induction alike with
  | nil => exact .nil
  | cons first _ ih =>
    rw [List.flatMap_cons]
    cases first with
    | @fixed text tidy =>
      have same (rest : List Char) : (read ((fixed text).write ++ rest)).given = (read rest).given :=
        tidy.given rest
      rw [same]
      exact ih
    | @given text =>
      rw [given_given]
      exact .cons text.shownIn_cell ih

end Bit

/-! ## The bits of a page -/

def tagBits (tag : String) : List Bit :=
  [.given (.tag tag)]

def stepBits (step : StepCard) : List Bit :=
  [.fixed "\n            ".toList, .given (.step step.keyword step.text),
    .fixed "\n            ".toList]

def errorBits (error : Option String) : List Bit :=
  error.toList.map fun error => .given (.error error)

/-- The tag before how a scenario stands. -/
def statusText (status : ScenarioStatus) : List Char :=
  "\n            <span class=\"".toList ++ status.name.toList ++ "\">".toList

def scenarioBits (scenario : ScenarioResult) : List Bit :=
  [.fixed "\n        <div class=\"scenario\">\n            ".toList, .given (.name scenario.name),
    .fixed (statusText scenario.status), .fixed (escaped (Text.upper scenario.status.name).toList),
    .fixed "</span>\n            ".toList] ++
  scenario.tags.flatMap tagBits ++ [.fixed "\n            ".toList] ++
  scenario.steps.flatMap stepBits ++ [.fixed "\n            ".toList] ++
  errorBits (shownError scenario) ++ [.fixed "\n        </div>\n        ".toList]

/-- What stands before the title of a feature. -/
def headerText (failed : Bool) : List Char :=
  "\n    <div class=\"feature\">\n        <div class=\"feature-header ".toList ++
    (if failed then "failed" else "passed").toList ++ "\">".toList

def featureBits (feature : FeatureResult) : List Bit :=
  [.fixed (headerText feature.failed), .given (.title feature.feature),
    .fixed "</div>\n        ".toList] ++
  feature.scenarios.flatMap scenarioBits ++ [.fixed "\n    </div>\n    ".toList]

/-- A page of what comes before the features, and the features. -/
def pageBits (front : List Chunk) (results : Results) : List Bit :=
  front.map (fun chunk => .fixed chunk.write.toList) ++ results.features.flatMap featureBits ++
    [.fixed "\n</body>\n</html>".toList]

/-! ## The chunks of a page are its bits -/

theorem written_flatMap {α β : Type} {items : List α} (shown : α → β) {chunks : β → List Chunk}
    {bits : α → List Bit} (each : ∀ item, written (chunks (shown item)) = (bits item).flatMap Bit.write) :
    written ((items.map shown).flatMap chunks) = (items.flatMap bits).flatMap Bit.write := by
  rw [List.flatMap_map, written, List.flatMap_assoc, List.flatMap_assoc]
  exact List.flatMap_congr fun item _ => each item

theorem written_fixed (chunks : List Chunk) : written chunks =
    (chunks.map fun chunk => Bit.fixed chunk.write.toList).flatMap Bit.write := by
  rw [List.flatMap_map]
  rfl

theorem written_tagChunks (tag : String) :
    written (tagChunks (.text tag)) = (tagBits tag).flatMap Bit.write := by
  simp [tagChunks, tagBits, Bit.write, UserText.tags, UserText.inserted]

theorem written_stepChunks (step : StepCard) :
    written (stepChunks (Results.stepValue step)) = (stepBits step).flatMap Bit.write := by
  simp [stepChunks, Results.stepValue, member_record, stepBits, Bit.write, UserText.tags,
    UserText.inserted]

theorem written_errorChunks (scenario : ScenarioResult) :
    written (errorChunks (scenario.error.map Value.text)) =
      (errorBits (shownError scenario)).flatMap Bit.write := by
  unfold errorChunks errorBits shownError
  cases known : scenario.error with
  | none => rfl
  | some error =>
    by_cases empty : error = ""
    · subst empty
      rfl
    · have shown : Option.filter (· ≠ "") (some error) = some error := by simp [Option.filter, empty]
      rw [shown]
      simp [Slot.holds, Value.truthy, empty, Bit.write, UserText.tags, UserText.inserted]

theorem escaped_status (status : ScenarioStatus) :
    escaped status.name.toList = status.name.toList := by
  cases status <;> decide

theorem scenarioChunks_eq (scenario : ScenarioResult) : ∃ chunks,
    scenarioChunks (Results.scenarioValue scenario) = .ok chunks ∧
      written chunks = (scenarioBits scenario).flatMap Bit.write := by
  have tags : ((Results.scenarioValue scenario).member "tags").items =
      .ok (scenario.tags.map Value.text) := by
    simp [Results.scenarioValue, member_record, Slot.items, Value.ofTexts, Value.items?]
  have steps : ((Results.scenarioValue scenario).member "steps").items =
      .ok (scenario.steps.map Results.stepValue) := by
    simp [Results.scenarioValue, member_record, Slot.items, Value.items?]
  have status : (Results.scenarioValue scenario).member "status" = some (.text scenario.status.name) := by
    simp [Results.scenarioValue, member_record]
  have name : (Results.scenarioValue scenario).member "name" = some (.text scenario.name) := by
    simp [Results.scenarioValue, member_record]
  have error : (Results.scenarioValue scenario).member "error" = scenario.error.map Value.text := by
    simp [Results.scenarioValue, member_record, find?_optional, Function.comp_def]
  have tagged : written ((scenario.tags.map Value.text).flatMap tagChunks) =
      (scenario.tags.flatMap tagBits).flatMap Bit.write := written_flatMap _ written_tagChunks
  have stepped : written ((scenario.steps.map Results.stepValue).flatMap stepChunks) =
      (scenario.steps.flatMap stepBits).flatMap Bit.write := written_flatMap _ written_stepChunks
  unfold scenarioChunks
  rw [tags, steps]
  refine ⟨_, rfl, ?_⟩
  have opening : ("\n        <div class=\"scenario\">\n" ++
      "            <span class=\"scenario-name\">").toList =
      "\n        <div class=\"scenario\">\n            ".toList ++
        '<' :: ("span class=\"scenario-name\"".toList ++ ['>']) := by decide
  have named : "</span>\n            <span class=\"".toList =
      '<' :: ("/span".toList ++ '>' :: "\n            <span class=\"".toList) := by decide
  rw [status, name, error]
  simp only [written_append, written_markup, written_content, written_nil]
  rw [tagged, stepped, written_errorChunks, opening, named, text_some, text_some, display_text,
    display_text, escaped_status]
  unfold scenarioBits statusText
  simp only [List.flatMap_append, List.flatMap_cons, List.flatMap_nil]
  simp only [Bit.write, UserText.tags, UserText.inserted]
  simp only [List.append_assoc, List.cons_append, List.nil_append]

theorem featureChunks_eq (feature : FeatureResult) : ∃ chunks,
    featureChunks (Results.featureValue feature) = .ok chunks ∧
      written chunks = (featureBits feature).flatMap Bit.write := by
  have items : ((Results.featureValue feature).member "scenarios").items =
      .ok (feature.scenarios.map Results.scenarioValue) := by
    simp [Results.featureValue, member_record, Slot.items, Value.items?]
  have status : (Results.featureValue feature).member "status" =
      some (.text (if feature.failed then "failed" else "passed")) := by
    simp [Results.featureValue, member_record]
  have title : (Results.featureValue feature).member "feature" = some (.text feature.feature) := by
    simp [Results.featureValue, member_record]
  have word : escaped (if feature.failed then "failed" else "passed").toList =
      (if feature.failed then "failed" else "passed").toList := by
    cases feature.failed <;> decide
  choose chunks made wrote using scenarioChunks_eq
  have scenarios : (feature.scenarios.map Results.scenarioValue).mapM scenarioChunks =
      .ok (feature.scenarios.map chunks) := Junit.mapM_map_ok fun scenario _ => made scenario
  have listed : written (feature.scenarios.map chunks).flatten =
      (feature.scenarios.flatMap scenarioBits).flatMap Bit.write := by
    rw [← List.flatMap_def]
    simpa using written_flatMap id wrote
  have opening : ("\n    <div class=\"feature\">\n" ++
      "        <div class=\"feature-header ").toList =
      "\n    <div class=\"feature\">\n        <div class=\"feature-header ".toList := by decide
  have titled : "\"><h2>".toList = "\">".toList ++ '<' :: ("h2".toList ++ ['>']) := by decide
  have closing : "</h2></div>\n        ".toList =
      '<' :: ("/h2".toList ++ '>' :: "</div>\n        ".toList) := by decide
  unfold featureChunks
  rw [items]
  change ∃ made, ((feature.scenarios.map Results.scenarioValue).mapM scenarioChunks >>= _) = _ ∧ _
  rw [scenarios]
  refine ⟨_, rfl, ?_⟩
  rw [status, title]
  simp only [written_append, written_markup, written_content, written_nil]
  rw [listed, opening, titled, closing, text_some, text_some, display_text, display_text, word]
  unfold featureBits headerText
  simp only [List.flatMap_append, List.flatMap_cons, List.flatMap_nil]
  simp only [Bit.write, UserText.tags, UserText.inserted]
  simp only [List.append_assoc, List.cons_append, List.nil_append]

/-! ## What comes before the features -/

theorem passRate_ok (total passed : Int) : ∃ rate, passRate (.int total) (.int passed) = .ok rate := by
  have greater : Value.greater (.int total) (.int 0) = .ok (decide (0 < total)) := by
    simp [Value.greater, Value.number?]
  unfold passRate
  rw [greater]
  cases decide (0 < total) <;> exact ⟨_, rfl⟩

/-- The part of a page before its features. -/
def frontChunks (timestamp now : String) (results : Results) : List Chunk :=
  opening timestamp ++ overview
    (secondsText (spanned (results.startTime.getD now) (some (results.endTime.getD now))))
    results.summaryValue
    (((passRate (.int results.total) (.int (results.count .passed))).toOption).getD .null)

theorem frontChunks_congr {results other : Results} (same : shape results = shape other)
    (timestamp now : String) : frontChunks timestamp now results = frontChunks timestamp now other := by
  have start : results.startTime = other.startTime := congrArg Shape.startTime same
  have finish : results.endTime = other.endTime := congrArg Shape.endTime same
  have total (results : Results) :
      results.total = ((shape results).features.flatMap (·.scenarios)).length := by
    simp [Results.total, shape, List.flatMap_map, featureShape, List.length_flatMap]
  have count (results : Results) (status : ScenarioStatus) : results.count status =
      (((shape results).features.flatMap (·.scenarios)).filter (·.status == status)).length := by
    simp [Results.count, shape, List.flatMap_map, featureShape, List.filter_flatMap, List.filter_map,
      List.length_flatMap, Function.comp_def, scenarioShape]
  unfold frontChunks Results.summaryValue
  simp only [start, finish, total, count, same]

theorem tidy_content (text : String) : Tidy (Chunk.content text).write.toList := by
  have same : (Chunk.content text).write.toList = escaped text.toList := by
    simp [Chunk.write, Chunk.escape, escaped]
  exact same ▸ .escaped _

theorem styleRules_tidy : Tidy (String.join (styleRules.map styleRule)).toList := by
  have bare : ∀ rule ∈ styleRules, '<' ∉ rule.1.toList ∧ '<' ∉ rule.2.toList := by
    simp only [styleRules, List.forall_mem_cons, String.toList_append, List.not_mem_nil, false_imp_iff,
      implies_true, and_true]
    and_intros <;> decide
  refine .of_bare fun member => ?_
  rw [String.toList_join] at member
  obtain ⟨_, written, inside⟩ := List.mem_flatMap.1 member
  obtain ⟨rule, known, rfl⟩ := List.mem_map.1 written
  obtain ⟨selector, declarations⟩ := bare rule known
  simp [styleRule, selector, declarations] at inside

theorem opening_tidy (timestamp : String) : ∀ chunk ∈ opening timestamp, Tidy chunk.write.toList := by
  simp only [opening, List.forall_mem_cons]
  refine ⟨.of_read (by decide), tidy_content _, ?_, tidy_content _, nofun⟩
  simp only [Chunk.write, String.toList_append]
  exact (((Tidy.of_read (by decide)).append styleRules_tidy).append
    (.of_read (by decide))).append
    (.of_read (by decide))

theorem card_tidy {label mark unit : String} (number : Slot) (bare : '<' ∉ label.toList)
    (bare' : '<' ∉ unit.toList)
    (marked : Tidy ("</h3><div class=\"".toList ++ mark.toList ++ "\">".toList)) :
    ∀ chunk ∈ card label mark unit number, Tidy chunk.write.toList := by
  simp only [card, List.forall_mem_cons]
  refine ⟨?_, tidy_content _, ?_, nofun⟩
  · simp only [Chunk.write, String.toList_append]
    rw [List.append_assoc, List.append_assoc, ← List.append_assoc _ mark.toList]
    exact ((Tidy.of_read (by decide)).append (.of_bare bare)).append marked
  · simp only [Chunk.write, String.toList_append]
    exact (Tidy.of_bare bare').append (.of_read (by decide))

theorem overview_tidy (seconds : String) (summary rate : Value) :
    ∀ chunk ∈ overview seconds summary rate, Tidy chunk.write.toList := by
  have plain : Tidy ("</h3><div class=\"".toList ++ "number".toList ++ "\">".toList) :=
    .of_read (by decide)
  simp only [overview, List.forall_mem_append]
  refine ⟨⟨⟨⟨⟨⟨?_, card_tidy _ (by decide) (by decide) plain⟩, card_tidy _ (by decide) (by decide) ?_⟩,
    card_tidy _ (by decide) (by decide) ?_⟩, card_tidy _ (by decide) (by decide) ?_⟩,
    card_tidy _ (by decide) (by decide) plain⟩, ?_⟩
  · simp only [List.forall_mem_cons]
    exact ⟨.of_read (by decide), tidy_content _,
      .of_read (by decide), nofun⟩
  all_goals first
    | exact .of_read (by decide)
    | exact List.forall_mem_singleton.2 (.of_read (by decide))

theorem frontChunks_tidy (timestamp now : String) (results : Results) :
    ∀ chunk ∈ frontChunks timestamp now results, Tidy chunk.write.toList :=
  List.forall_mem_append.2 ⟨opening_tidy timestamp, overview_tidy _ _ _⟩

/-! ## Bits of one shape -/

/-- As many items are alike when each is like any other. -/
theorem flatMap_alike {α : Type} {bits : α → List Bit} {first second : List α}
    (length : first.length = second.length)
    (each : ∀ item item', List.Forall₂ Bit.Alike (bits item) (bits item')) :
    List.Forall₂ Bit.Alike (first.flatMap bits) (second.flatMap bits) := by
  have paired : List.Forall₂ (fun _ _ => True) first second :=
    List.forall₂_iff_zip.2 ⟨length, fun _ => trivial⟩
  exact List.rel_flatMap paired fun item item' _ => each item item'

theorem statusText_tidy (status : ScenarioStatus) : Tidy (statusText status) := by
  cases status <;> exact .of_read (by decide)

theorem headerText_tidy (failed : Bool) : Tidy (headerText failed) := by
  cases failed <;> exact .of_read (by decide)

theorem scenarioBits_alike {scenario other : ScenarioResult}
    (same : scenarioShape scenario = scenarioShape other) :
    List.Forall₂ Bit.Alike (scenarioBits scenario) (scenarioBits other) := by
  have blank : Tidy "\n            ".toList := .of_bare (by decide)
  have tags : List.Forall₂ Bit.Alike (scenario.tags.flatMap tagBits) (other.tags.flatMap tagBits) :=
    flatMap_alike (congrArg ScenarioShape.tags same) fun _ _ => .cons (.given rfl) .nil
  have steps : List.Forall₂ Bit.Alike (scenario.steps.flatMap stepBits) (other.steps.flatMap stepBits) :=
    flatMap_alike (congrArg ScenarioShape.steps same) fun _ _ =>
      .cons (.fixed blank) (.cons (.given rfl) (.cons (.fixed blank) .nil))
  have errors : List.Forall₂ Bit.Alike (errorBits (shownError scenario)) (errorBits (shownError other)) := by
    have both := congrArg ScenarioShape.hasError same
    simp only [scenarioShape] at both
    cases first : shownError scenario <;> cases second : shownError other <;> simp_all [errorBits]
    exact .given rfl
  have status : scenario.status = other.status := congrArg ScenarioShape.status same
  have scenario_tidy : Tidy "\n        <div class=\"scenario\">\n            ".toList :=
    .of_read (by decide)
  have span_tidy : Tidy "</span>\n            ".toList := .of_read (by decide)
  have end_tidy : Tidy "\n        </div>\n        ".toList :=
    .of_read (by decide)
  unfold scenarioBits
  rw [status]
  refine List.rel_append (List.rel_append (List.rel_append (List.rel_append (List.rel_append
    (List.rel_append ?_ tags) ?_) steps) ?_) errors) ?_
  · exact .cons (.fixed scenario_tidy) (.cons (.given rfl) (.cons (.fixed (statusText_tidy _))
      (.cons (.fixed (.escaped _)) (.cons (.fixed span_tidy) .nil))))
  · exact .cons (.fixed blank) .nil
  · exact .cons (.fixed blank) .nil
  · exact .cons (.fixed end_tidy) .nil

/-- Items of one shape, one by one. -/
theorem forall₂_of_map {α β : Type} {shape : α → β} {first second : List α}
    (same : first.map shape = second.map shape) :
    List.Forall₂ (fun a b => shape a = shape b) first second := by
  have both : List.Forall₂ Eq (first.map shape) (second.map shape) :=
    same ▸ List.forall₂_same.2 fun _ _ => rfl
  rwa [List.forall₂_map_left_iff, List.forall₂_map_right_iff] at both

theorem featureBits_alike {feature other : FeatureResult}
    (same : featureShape feature = featureShape other) :
    List.Forall₂ Bit.Alike (featureBits feature) (featureBits other) := by
  have scenarios := List.rel_flatMap (forall₂_of_map (congrArg FeatureShape.scenarios same))
    fun _ _ => scenarioBits_alike
  have failed : feature.failed = other.failed := congrArg FeatureShape.failed same
  have titled : Tidy "</div>\n        ".toList := .of_read (by decide)
  have closing : Tidy "\n    </div>\n    ".toList := .of_read (by decide)
  unfold featureBits
  rw [failed]
  refine List.rel_append (List.rel_append ?_ scenarios) (.cons (.fixed closing) .nil)
  exact .cons (.fixed (headerText_tidy _)) (.cons (.given rfl) (.cons (.fixed titled) .nil))

theorem pageBits_alike {results other : Results} (same : shape results = shape other)
    (timestamp now : String) : List.Forall₂ Bit.Alike (pageBits (frontChunks timestamp now results) results)
      (pageBits (frontChunks timestamp now other) other) := by
  have features := List.rel_flatMap (forall₂_of_map (congrArg Shape.features same))
    fun _ _ => featureBits_alike
  have ending : Tidy "\n</body>\n</html>".toList := .of_read (by decide)
  unfold pageBits
  rw [frontChunks_congr same]
  refine List.rel_append (List.rel_append ?_ features) (.cons (.fixed ending) .nil)
  rw [List.forall₂_map_left_iff, List.forall₂_map_right_iff, List.forall₂_same]
  exact fun chunk member => .fixed (frontChunks_tidy timestamp now other chunk member)

theorem scenarioBits_texts (scenario : ScenarioResult) :
    (scenarioBits scenario).filterMap Bit.text? = scenarioTexts scenario := by
  have tags : (scenario.tags.flatMap tagBits).filterMap Bit.text? = scenario.tags.map .tag := by
    rw [List.filterMap_flatMap]
    exact List.map_eq_flatMap.symm
  have steps : (scenario.steps.flatMap stepBits).filterMap Bit.text? =
      scenario.steps.map fun step => .step step.keyword step.text := by
    rw [List.filterMap_flatMap]
    exact List.map_eq_flatMap.symm
  have errors : (errorBits (shownError scenario)).filterMap Bit.text? =
      (shownError scenario).toList.map .error := by
    cases shownError scenario <;> rfl
  unfold scenarioBits scenarioTexts
  simp only [List.filterMap_append, tags, steps, errors, Bit.texts_fixed, Bit.texts_given,
    List.filterMap_nil]
  simp

theorem pageBits_texts (front : List Chunk) (results : Results) :
    (pageBits front results).filterMap Bit.text? = userTexts results := by
  have features (feature : FeatureResult) :
      (featureBits feature).filterMap Bit.text? = featureTexts feature := by
    unfold featureBits featureTexts
    simp only [List.filterMap_append, List.filterMap_flatMap, scenarioBits_texts, Bit.texts_fixed,
      Bit.texts_given, List.filterMap_nil, List.append_nil, List.singleton_append]
  have none : (front.map fun chunk => Bit.fixed chunk.write.toList).filterMap Bit.text? = [] := by
    simp [List.filterMap_map, Function.comp_def, Bit.text?]
  unfold pageBits userTexts
  simp only [List.filterMap_append, List.filterMap_flatMap, features, none, Bit.texts_fixed,
    List.filterMap_nil, List.append_nil, List.nil_append]

/-! ## The page -/

theorem ok_bind {α β : Type} (value : α) (further : α → Except Fault β) :
    (Except.ok value >>= further) = further value := rfl

theorem chunks_value (timestamp : String) {now : String} {results : Results} (stamp : Stamp now)
    (timed : results.Timed) : ∃ chunks, Page.chunks timestamp (results.value now) = .ok chunks ∧
      written chunks = (pageBits (frontChunks timestamp now results) results).flatMap Bit.write := by
  have summary : (results.value now).getOr "summary" (.dict []) = .ok results.summaryValue :=
    getOr_record (by simp [member_record]) _
  have total : results.summaryValue.getOr "total" (.int 0) = .ok (.int results.total) :=
    getOr_record (by simp [member_record]) _
  have passed : results.summaryValue.getOr "passed" (.int 0) = .ok (.int (results.count .passed)) :=
    getOr_record (by simp [member_record]) _
  have features : (results.value now).getOr "features" (.list []) =
      .ok (.list (results.features.map Results.featureValue)) := getOr_record (by simp [member_record]) _
  have known := entriesDuration_known (results.value now)
    (by simp [Results.value, member_record]) (by simp [Results.value, member_record])
    (timed.start_getD stamp) (timed.finish_getD stamp)
  obtain ⟨rate, rated⟩ := passRate_ok results.total (results.count .passed)
  choose chunks made wrote using featureChunks_eq
  have shown : (results.features.map Results.featureValue).mapM featureChunks =
      .ok (results.features.map chunks) := Junit.mapM_map_ok fun feature _ => made feature
  have listed : written (results.features.map chunks).flatten =
      (results.features.flatMap featureBits).flatMap Bit.write := by
    rw [← List.flatMap_def]
    simpa using written_flatMap id wrote
  have entries : (results.value now).entries? = .ok (entriesOf (results.value now)) := rfl
  have items : (Value.list (results.features.map Results.featureValue)).items? =
      .ok (results.features.map Results.featureValue) := rfl
  refine ⟨frontChunks timestamp now results ++ (results.features.map chunks).flatten ++
    [.markup "\n</body>\n</html>"], ?_, ?_⟩
  · unfold Page.chunks
    rw [summary, ok_bind, total, ok_bind, passed, ok_bind, rated, ok_bind, entries, ok_bind, known,
      ok_bind, features, ok_bind, items, ok_bind, shown, ok_bind, frontChunks, rated]
    rfl
  · rw [written_append, written_append, listed, written_fixed]
    simp only [pageBits, List.flatMap_append]
    rfl

/-- The page on stamped results is written in bits. -/
theorem page_eq (clock : Moment) (directory : Path) {now : String} {results : Results}
    (stamp : Stamp now) (timed : results.Timed) :
    ∃ file, generateReport clock directory (results.value now) "html" = .ok file ∧
      file.content.toList =
        (pageBits (frontChunks clock.stamp now results) results).flatMap Bit.write := by
  obtain ⟨chunks, made, bits⟩ := chunks_value clock.stamp stamp timed
  have content : ReportFormat.html.write clock.stamp (results.value now) =
      .ok (Chunk.writeAll chunks) := by
    rw [ReportFormat.write, made]
    rfl
  have format : ReportFormat.ofName? "html" = some .html := by decide
  refine ⟨⟨directory.append (.ofText ("report_" ++ clock.stamp ++ ReportFormat.html.suffix)),
    Chunk.writeAll chunks⟩, ?_, (Junit.toList_writeAll chunks).trans bits⟩
  rw [generateReport, format]
  dsimp only
  rw [content]
  rfl

/-- The pages on two results of one shape, whatever their titles, names, tags, steps and errors are,
have the same tags and differ only in the texts in the places for these; and there is, in the order of
the results, just what the user has written, once the entities are replaced. -/
theorem markup_independent {results other : Results} {now : Moment} (clock : Moment)
    (directory : Path) (collected : results.Collected) (collected' : other.Collected)
    (dated : now.Dated) (same : shape results = shape other) : ∃ file file',
      generateReport clock directory (results.value now.text) "html" = .ok file ∧
      generateReport clock directory (other.value now.text) "html" = .ok file' ∧
      (read file.content.toList).Alike (read file'.content.toList) ∧
      List.Forall₂ (fun cell text => UserText.ShownIn cell text) (read file.content.toList).given
        (userTexts results) ∧
      List.Forall₂ (fun cell text => UserText.ShownIn cell text) (read file'.content.toList).given
        (userTexts other) := by
  obtain ⟨file, generated, content⟩ := page_eq clock directory dated.stamp collected.timed
  obtain ⟨file', generated', content'⟩ := page_eq clock directory dated.stamp collected'.timed
  refine ⟨file, file', generated, generated', ?_⟩
  rw [content, content', ← pageBits_texts (frontChunks clock.stamp now.text results),
    ← pageBits_texts (frontChunks clock.stamp now.text other)]
  exact ⟨Bit.read_alike (pageBits_alike same _ _), Bit.read_texts (pageBits_alike same _ _),
    Bit.read_texts (pageBits_alike same.symm _ _)⟩

/-- What is collected of a suite with one test that fails, all at one moment. -/
def failedResults (title name tag step message : String) : Results :=
  let card : TestCard := ⟨name, [tag], [⟨"Given", step⟩]⟩
  Results.initial.collectAll ([(.suiteBefore, [.suite ⟨title, []⟩]), (.testStarted, [.test card]),
    (.testFailed, [.test card, .text message]), (.testFinished, [.test card]),
    (.suiteAfter, [.suite ⟨title, []⟩])].map fun due => ((⟨0, none⟩ : Moment).text, due))

theorem failedResults_collected (title name tag step message : String) :
    (failedResults title name tag step message).Collected := by
  have dated : (⟨0, none⟩ : Moment).Dated := by decide
  exact .collects (.collects (.collects (.collects (.collects .initial dated _ _) dated _ _) dated _ _)
    dated _ _) dated _ _

/-- Texts that look like markup, and others. -/
theorem markup_independent_quotes :
    (failedResults "<h2>" "&lt;" "\"" "'" "</div>").Collected ∧
    (failedResults "Core" "Works" "slow" "all is well" "no").Collected ∧
    (⟨0, none⟩ : Moment).Dated ∧
    shape (failedResults "<h2>" "&lt;" "\"" "'" "</div>") =
      shape (failedResults "Core" "Works" "slow" "all is well" "no") ∧
    ∃ file file',
      generateReport ⟨0, none⟩ ⟨"", []⟩
        ((failedResults "<h2>" "&lt;" "\"" "'" "</div>").value (⟨0, none⟩ : Moment).text)
        "html" = .ok file ∧
      generateReport ⟨0, none⟩ ⟨"", []⟩
        ((failedResults "Core" "Works" "slow" "all is well" "no").value (⟨0, none⟩ : Moment).text)
        "html" = .ok file' ∧
      (read file.content.toList).Alike (read file'.content.toList) ∧
      List.Forall₂ (fun cell text => UserText.ShownIn cell text) (read file.content.toList).given
        [.title "<h2>", .name "&lt;", .tag "\"", .step "Given" "'", .error "</div>"] := by
  have collected := failedResults_collected "<h2>" "&lt;" "\"" "'" "</div>"
  have collected' := failedResults_collected "Core" "Works" "slow" "all is well" "no"
  have dated : (⟨0, none⟩ : Moment).Dated := by decide
  have same : shape (failedResults "<h2>" "&lt;" "\"" "'" "</div>") =
    shape (failedResults "Core" "Works" "slow" "all is well" "no") := rfl
  obtain ⟨file, file', generated, generated', alike, shown, -⟩ :=
    markup_independent ⟨0, none⟩ ⟨"", []⟩ collected collected' dated same
  exact ⟨collected, collected', dated, same, file, file', generated, generated', alike, shown⟩

end FeatureRunner.Page
