import FeatureRunner.Proofs.Report.ReadBack

/-!
Reports against the grammar of XML 1.0. A report on collected results is always derived by the
grammar. It is well-formed only where all its characters are allowed, and what decides this is the
text of the titles and messages: the characters of entities are escaped, control characters are not.

The grammar is what a report needs of XML: no comments, processing instructions, sections of
characters and document types, and names in ASCII. What it derives from allowed characters is
well-formed, and nothing is well-formed that has a character that is not allowed.

Main statement: `Junit.Xml.wellFormed_report_iff`.
-/

namespace FeatureRunner.Junit.Xml
open FeatureRunner.Calendar

/-! ## The grammar -/

/-- A character that XML 1.0 allows. Surrogates, which it does not, are not characters here. -/
def Allowed (c : Char) : Prop :=
  c ∈ ['\t', '\n', '\r'] ∨ 0x20 ≤ c.toNat ∧ c.toNat ≠ 0xFFFE ∧ c.toNat ≠ 0xFFFF

instance : DecidablePred Allowed := fun _ => inferInstanceAs (Decidable (_ ∨ _))

/-- White space, which may be empty. -/
def Blank (text : List Char) : Prop :=
  ∀ c ∈ text, c ∈ [' ', '\t', '\n', '\r']

def nameStart (c : Char) : Bool :=
  c.isAlpha || c == '_' || c == ':'

def nameChar (c : Char) : Bool :=
  nameStart c || c.isDigit || c == '-' || c == '.'

def Name : List Char → Prop
  | [] => False
  | first :: rest => nameStart first = true ∧ ∀ c ∈ rest, nameChar c = true

/-- A reference to an entity or to a character by its number. -/
inductive Reference : List Char → Prop
  | entity (name : String) (known : name ∈ ["amp", "lt", "gt", "apos", "quot"]) :
      Reference ('&' :: (name.toList ++ [';']))
  | character (digits : List Char) (c : Char) (some : digits ≠ [])
      (decimal : ∀ digit ∈ digits, digit.isDigit = true)
      (spells : Nat.ofDigitChars 10 digits 0 = c.toNat) (allowed : Allowed c) :
      Reference ('&' :: '#' :: (digits ++ [';']))

/-- What stands between the quotes of an attribute. -/
inductive AttValue : List Char → Prop
  | nil : AttValue []
  | char {c : Char} {rest : List Char} (plain : c ∉ ['<', '&', '"']) (value : AttValue rest) :
      AttValue (c :: rest)
  | reference {reference rest : List Char} (refers : Reference reference) (value : AttValue rest) :
      AttValue (reference ++ rest)

/-- Attributes with different keys, each behind some white space. -/
inductive Attributes : List (List Char) → List Char → Prop
  | nil : Attributes [] []
  | cons {keys : List (List Char)} {space key value rest : List Char} (blank : Blank space)
      (some : space ≠ []) (named : Name key) (fresh : key ∉ keys) (quoted : AttValue value)
      (others : Attributes keys rest) :
      Attributes (key :: keys) (space ++ key ++ '=' :: '"' :: (value ++ '"' :: rest))

mutual

/-- An element, closed by its own tag or by one of the same name. -/
inductive Element : List Char → Prop
  | empty {keys : List (List Char)} {name attributes space : List Char} (named : Name name)
      (listed : Attributes keys attributes) (blank : Blank space) :
      Element ('<' :: (name ++ attributes ++ space ++ ['/', '>']))
  | full {keys : List (List Char)} {name attributes space content space' : List Char}
      (named : Name name) (listed : Attributes keys attributes) (blank : Blank space)
      (inside : Content content) (blank' : Blank space') :
      Element ('<' :: (name ++ attributes ++ space ++ '>' ::
        (content ++ '<' :: '/' :: (name ++ space' ++ ['>']))))

/-- What stands within an element. -/
inductive Content : List Char → Prop
  | nil : Content []
  | char {c : Char} {rest : List Char} (plain : c ∉ ['<', '&', '>']) (content : Content rest) :
      Content (c :: rest)
  | reference {reference rest : List Char} (refers : Reference reference) (content : Content rest) :
      Content (reference ++ rest)
  | element {element rest : List Char} (whole : Element element) (content : Content rest) :
      Content (element ++ rest)

end

/-- A document: a declaration and one element, with white space around it. -/
def Document (text : List Char) : Prop :=
  ∃ space element space', Blank space ∧ Element element ∧ Blank space' ∧
    text = declaration.toList ++ space ++ element ++ space'

/-- A well-formed document has allowed characters only. -/
structure WellFormed (text : List Char) : Prop where
  document : Document text
  allowed : ∀ c ∈ text, Allowed c

/-! ## Tags by the grammar -/

theorem reference_escapeChar {c : Char} (known : c ∈ special) : Reference (Chunk.escapeChar c) := by
  simp only [special, List.mem_cons, List.not_mem_nil, or_false] at known
  rcases known with rfl | rfl | rfl | rfl | rfl
  · exact .entity "amp" (by decide)
  · exact .entity "lt" (by decide)
  · exact .entity "gt" (by decide)
  · exact .character ['3', '9'] '\'' (by decide) (by simp) (by decide) (by decide)
  · exact .character ['3', '4'] '"' (by decide) (by simp) (by decide) (by decide)

theorem attValue_escaped (text : List Char) : AttValue (escaped text) := by
  induction text with
  | nil => exact .nil
  | cons c text ih =>
    have written : escaped (c :: text) = Chunk.escapeChar c ++ escaped text := rfl
    rw [written]
    -- A special character is written as a reference, any other one as itself.
    by_cases known : c ∈ special
    · exact .reference (reference_escapeChar known) ih
    · rw [escapeChar_plain known]
      have marks : ∀ c ∈ ['<', '&', '"'], c ∈ special := by simp [special]
      exact .char (fun member => known (marks c member)) ih

theorem name_of_word {text : String} (word : Word text) (some : text ≠ "") : Name text.toList := by
  have some : text.toList ≠ [] := by simpa using some
  obtain ⟨first, rest, known⟩ := List.exists_cons_of_ne_nil some
  have letters : ∀ c ∈ first :: rest, c.isAlpha = true := known ▸ word
  obtain ⟨begins, others⟩ := List.forall_mem_cons.1 letters
  rw [known]
  exact ⟨by simp [nameStart, begins], fun c member => by simp [nameChar, nameStart, others c member]⟩

/-- A tag that the grammar has: its name and its keys are names, and no key is there twice. -/
structure Sound (tag : Tag) : Prop where
  named : Name tag.name.toList
  keys : ∀ pair ∈ tag.attributes, Name pair.1.toList
  distinct : (tag.attributes.map fun pair => pair.1.toList).Nodup

theorem attributes_write {attributes : List (String × String)}
    (named : ∀ pair ∈ attributes, Name pair.1.toList)
    (distinct : (attributes.map fun pair => pair.1.toList).Nodup) :
    Attributes (attributes.map fun pair => pair.1.toList) (attributes.flatMap fun (key, value) =>
      ' ' :: (key.toList ++ '=' :: '"' :: (escaped value.toList ++ ['"']))) := by
  induction attributes with
  | nil => exact .nil
  | cons pair attributes ih =>
    obtain ⟨here, named⟩ := List.forall_mem_cons.1 named
    obtain ⟨fresh, distinct⟩ := List.nodup_cons.1 distinct
    have space : Blank [' '] := fun c member => by simp_all
    have listed := Attributes.cons space (by simp) here fresh
      (attValue_escaped pair.2.toList) (ih named distinct)
    simpa using listed

/-- Pieces that can stand within an element, whatever content is behind them. -/
def Fills (pieces : List Piece) : Prop :=
  ∀ rest, Content rest → Content (pieces.flatMap Piece.write ++ rest)

theorem Fills.nil : Fills [] :=
  fun _ content => content

theorem Fills.append {first rest : List Piece} (fills : Fills first) (fills' : Fills rest) :
    Fills (first ++ rest) := by
  intro behind content
  rw [List.flatMap_append, List.append_assoc]
  exact fills _ (fills' _ content)

theorem Fills.flatMap {α : Type} {items : List α} {pieces : α → List Piece}
    (each : ∀ item, Fills (pieces item)) : Fills (items.flatMap pieces) := by
  induction items with
  | nil => exact .nil
  | cons item items ih => exact (each item).append ih

theorem Content.blank {text rest : List Char} (blank : Blank text) (content : Content rest) :
    Content (text ++ rest) := by
  induction text with
  | nil => exact content
  | cons c text ih =>
    obtain ⟨here, blank⟩ := List.forall_mem_cons.1 blank
    have apart : ∀ c ∈ [' ', '\t', '\n', '\r'], c ∉ ['<', '&', '>'] := by simp
    exact .char (apart c here) (ih blank)

/-- What is enclosed in a tag is an element behind some white space. -/
theorem element_enclosed {space space' : String} (blank : Blank space'.toList) {tag : Tag}
    (sound : Sound tag) {pieces : List Piece} (fills : Fills pieces) : ∃ element, Element element ∧
      (enclosed space space' tag pieces).flatMap Piece.write = space.toList ++ element := by
  have content : Content (pieces.flatMap Piece.write ++ space'.toList) :=
    fills _ (List.append_nil space'.toList ▸ Content.nil.blank blank)
  have none : Blank [] := List.forall_mem_nil _
  have element := Element.full sound.named (attributes_write sound.keys sound.distinct) none content none
  exact ⟨_, element, by simp [enclosed, Token.write, Tag.write, Piece.write]⟩

theorem Fills.enclosed {space space' : String} (blank : Blank space.toList)
    (blank' : Blank space'.toList) {tag : Tag} (sound : Sound tag) {pieces : List Piece}
    (fills : Fills pieces) : Fills (enclosed space space' tag pieces) := by
  intro rest content
  obtain ⟨element, whole, same⟩ := element_enclosed blank' sound fills
  rw [same, List.append_assoc]
  exact (Content.element whole content).blank blank

/-! ## The report is a document -/

/-- A tag of words that are all there is sound if its keys differ. -/
theorem Sound.of_words {tag : Tag} (words : ∀ word ∈ (Token.opens tag).words, Word word ∧ word ≠ "")
    (distinct : (tag.attributes.map (·.1)).Nodup) : Sound tag where
  named := by
    obtain ⟨word, some⟩ := words tag.name List.mem_cons_self
    exact name_of_word word some
  keys pair member := by
    obtain ⟨word, some⟩ := words pair.1 (List.mem_cons_of_mem _ (List.mem_map_of_mem member))
    exact name_of_word word some
  distinct := by
    have texts := distinct.map fun _ _ => String.toList_injective
    rwa [List.map_map] at texts

theorem fills_standing (scenario : ScenarioResult) : Fills (standingPieces scenario) := by
  unfold standingPieces
  cases scenario.status with
  | failed =>
    have sound : Sound ⟨"failure", [("message", message scenario)]⟩ :=
      .of_words (by simp [Token.words, Word]) (by simp)
    exact .enclosed (by simp [Blank]) (by simp [Blank]) sound .nil
  | skipped =>
    intro rest content
    have element : Element ('<' :: ("skipped".toList ++ [] ++ [] ++ ['/', '>'])) :=
      .empty (name_of_word (by simp [Word]) (by simp)) .nil (List.forall_mem_nil _)
    have space : Blank "\n            ".toList := by simp [Blank]
    have spaced := (Content.element element content).blank space
    simpa [Piece.write, Token.write, Tag.write] using spaced
  | _ => exact .nil

theorem fills_case (feature : String) (scenario : ScenarioResult) :
    Fills (casePieces feature scenario) :=
  .enclosed (by simp [Blank]) (by simp [Blank])
    (.of_words (by simp [Token.words, caseTag, Word]) (by simp [caseTag])) (fills_standing scenario)

theorem fills_suite (feature : FeatureResult) : Fills (suitePieces feature) :=
  .enclosed (by simp [Blank]) (by simp [Blank])
    (.of_words (by simp [Token.words, suiteTag, Word]) (by simp [suiteTag]))
    (.flatMap (fills_case feature.feature))

/-- Whatever the results are, the grammar derives the report. -/
theorem document_report (now : String) (results : Results) :
    Document (declaration.toList ++ (pieces now results).flatMap Piece.write) := by
  have sound : Sound (rootTag now results) :=
    .of_words (by simp [Token.words, rootTag, Word]) (by simp [rootTag])
  have space : Blank "\n".toList := by simp [Blank]
  obtain ⟨element, whole, same⟩ := element_enclosed space sound (.flatMap fills_suite)
  refine ⟨_, element, [], space, whole, List.forall_mem_nil _, ?_⟩
  rw [pieces, same, List.append_nil, List.append_assoc]

/-! ## The characters of a report -/

/-- A text of allowed characters. -/
def Printable (text : String) : Prop :=
  ∀ c ∈ text.toList, Allowed c

instance : DecidablePred Printable := fun text =>
  List.decidableBAll Allowed text.toList

theorem allowed_of_between {c : Char} (above : 0x20 ≤ c.toNat) (below : c.toNat < 0x7F) : Allowed c :=
  .inr ⟨above, by omega, by omega⟩

theorem allowed_of_isAlpha {c : Char} (alpha : c.isAlpha = true) : Allowed c := by
  unfold Char.isAlpha Char.isUpper Char.isLower at alpha
  simp only [Bool.or_eq_true, Bool.and_eq_true, decide_eq_true_eq, ge_iff_le,
    UInt32.le_iff_toNat_le] at alpha
  have same : c.val.toNat = c.toNat := rfl
  simp at alpha
  exact allowed_of_between (by omega) (by omega)

theorem allowed_of_numeric {c : Char} (number : numeric c = true) : Allowed c := by
  simp only [numeric, Char.isDigit, Bool.or_eq_true, Bool.and_eq_true, decide_eq_true_eq, ge_iff_le,
    UInt32.le_iff_toNat_le, List.contains_iff_mem] at number
  rcases number with digit | sign
  · have same : c.val.toNat = c.toNat := rfl
    simp at digit
    exact allowed_of_between (by omega) (by omega)
  · have signs : Printable "+-.aefin" := by decide
    exact signs c sign

theorem printable_of_word {text : String} (word : Word text) : Printable text :=
  fun c member => allowed_of_isAlpha (word c member)

/-- What is written as content has the characters of the text, but for entities. -/
theorem allowed_escaped (text : List Char) :
    (∀ c ∈ escaped text, Allowed c) ↔ ∀ c ∈ text, Allowed c := by
  have entities : ∀ c ∈ special, Allowed c ∧ ∀ d ∈ Chunk.escapeChar c, Allowed d := by
    simp [special, Chunk.escapeChar, Allowed]
  have each (c : Char) : (∀ d ∈ Chunk.escapeChar c, Allowed d) ↔ Allowed c := by
    by_cases known : c ∈ special
    · exact ⟨fun _ => (entities c known).1, fun _ => (entities c known).2⟩
    · rw [escapeChar_plain known, List.forall_mem_singleton]
  simp only [escaped, List.forall_mem_flatMap, each]

/-- The values of the attributes of a token. -/
def values : Token → List String
  | .opens tag => tag.attributes.map (·.2)
  | .closes _ => []
  | .stands tag => tag.attributes.map (·.2)

theorem allowed_write {tag : Tag} (words : ∀ word ∈ (Token.opens tag).words, Word word) :
    (∀ c ∈ tag.write, Allowed c) ↔ ∀ value ∈ tag.attributes.map (·.2), Printable value := by
  obtain ⟨named, keys⟩ := List.forall_mem_cons.1 words
  have name := printable_of_word named
  have marks : Allowed ' ' ∧ Allowed '=' ∧ Allowed '"' := by decide
  rw [Tag.write, List.forall_mem_append, List.forall_mem_flatMap, List.forall_mem_map]
  refine ⟨fun all pair member => ?_, fun all => ⟨name, fun pair member => ?_⟩⟩
  · have written := all.2 pair member
    simp only [List.forall_mem_cons, List.forall_mem_append, allowed_escaped] at written
    exact written.2.2.2.2.1
  · have key := printable_of_word (keys pair.1 (List.mem_map_of_mem member))
    simp only [List.forall_mem_cons, List.forall_mem_append, allowed_escaped]
    exact ⟨marks.1, key, marks.2.1, marks.2.2, all pair member, marks.2.2, List.forall_mem_nil _⟩

theorem allowed_piece {piece : Piece} (plain : piece.Plain) :
    (∀ c ∈ piece.write, Allowed c) ↔ ∀ value ∈ values piece.token, Printable value := by
  have blanks (c : Char) (blank : c.isWhitespace = true) : Allowed c := by
    simp only [Char.isWhitespace, Bool.or_eq_true, decide_eq_true_eq] at blank
    rcases blank with ((rfl | rfl) | rfl) | rfl <;> decide
  have space : ∀ c ∈ piece.space.toList, Allowed c := fun c member => blanks c (plain.blank c member)
  have marks : Allowed '<' ∧ Allowed '>' ∧ Allowed '/' := by decide
  rw [Piece.write, List.forall_mem_append, and_iff_right space]
  have words := plain.words
  cases token : piece.token with
  | opens tag =>
    rw [token] at words
    simp only [Token.write, List.forall_mem_cons, List.forall_mem_append, allowed_write words, marks,
      List.not_mem_nil, false_implies, implies_true, and_true, true_and, values]
  | closes name =>
    rw [token] at words
    simp only [Token.write, List.forall_mem_cons, List.forall_mem_append, marks,
      List.not_mem_nil, false_implies, implies_true, and_true, true_and, values, iff_true]
    exact printable_of_word (words name List.mem_cons_self)
  | stands tag =>
    rw [token] at words
    simp only [Token.write, List.forall_mem_cons, List.forall_mem_append, allowed_write words, marks,
      List.not_mem_nil, false_implies, implies_true, and_true, true_and, values]

/-- The texts of pieces are printable. -/
def AllPrintable (pieces : List Piece) : Prop :=
  ∀ piece ∈ pieces, ∀ value ∈ values piece.token, Printable value

theorem allPrintable_flatMap {α : Type} {items : List α} {pieces : α → List Piece} :
    AllPrintable (items.flatMap pieces) ↔ ∀ item ∈ items, AllPrintable (pieces item) :=
  List.forall_mem_flatMap

theorem allPrintable_enclosed {space space' : String} {tag : Tag} {pieces : List Piece} :
    AllPrintable (enclosed space space' tag pieces) ↔
      (∀ value ∈ tag.attributes.map (·.2), Printable value) ∧ AllPrintable pieces := by
  rw [AllPrintable, forall_mem_enclosed, AllPrintable, values, values,
    and_iff_left (List.forall_mem_nil _)]

/-- The titles of features and scenarios, and the messages of scenarios that have failed, are
printable. -/
def PrintableResults (results : Results) : Prop :=
  ∀ feature ∈ results.features, Printable feature.feature ∧ ∀ scenario ∈ feature.scenarios,
    Printable scenario.name ∧ (scenario.status = .failed → Printable (scenario.error.getD "Test failed"))

instance (results : Results) : Decidable (PrintableResults results) :=
  inferInstanceAs (Decidable (∀ feature ∈ results.features, Printable feature.feature ∧
    ∀ scenario ∈ feature.scenarios, Printable scenario.name ∧
      (scenario.status = .failed → Printable (scenario.error.getD "Test failed"))))

theorem printable_toString (number : Nat) : Printable (toString number) := by
  intro c member
  exact allowed_of_numeric (numeric_toDigits number c (by simpa using member))

theorem printable_time {start : String} {finish : Option String} (stamp : Stamp start)
    (stamp' : ∀ time ∈ finish, Stamp time) : Printable (timeText start finish) :=
  fun c member => allowed_of_numeric (numeric_time stamp stamp' c member)

theorem printable_joinWords {text : String} (printable : Printable text) :
    Printable (joinWords text) := by
  intro c member
  rw [joinWords, String.toList_map, List.mem_map] at member
  obtain ⟨d, known, rfl⟩ := member
  split
  · decide
  · exact printable d known

theorem standing_printable (scenario : ScenarioResult) : AllPrintable (standingPieces scenario) ↔
    (scenario.status = .failed → Printable (scenario.error.getD "Test failed")) := by
  unfold standingPieces
  cases scenario.status with
  | failed =>
    rw [allPrintable_enclosed]
    simp [AllPrintable, message]
  | _ => simp [AllPrintable, values]

theorem case_printable {feature : String} (title : Printable feature) {scenario : ScenarioResult}
    (timed : scenario.Timed) : AllPrintable (casePieces feature scenario) ↔ Printable scenario.name ∧
      (scenario.status = .failed → Printable (scenario.error.getD "Test failed")) := by
  have time := printable_time timed.start timed.finish
  rw [casePieces, allPrintable_enclosed, standing_printable]
  simp [caseTag, time, printable_joinWords title]

theorem suite_printable {feature : FeatureResult} (timed : feature.Timed) :
    AllPrintable (suitePieces feature) ↔ Printable feature.feature ∧
      ∀ scenario ∈ feature.scenarios, Printable scenario.name ∧
        (scenario.status = .failed → Printable (scenario.error.getD "Test failed")) := by
  have time := printable_time timed.start timed.finish
  rw [suitePieces, allPrintable_enclosed, allPrintable_flatMap]
  simp only [suiteTag, List.map_cons, List.map_nil, List.forall_mem_cons, List.not_mem_nil,
    false_implies, implies_true, and_true, printable_toString, time]
  -- The title of the feature stands in every case, too, as the name of its class.
  exact and_congr_right fun title => forall₂_congr fun scenario member =>
    case_printable title (timed.scenarios scenario member)

/-- The characters of a report are allowed if its titles and messages are printable, and only then. -/
theorem report_printable {now : String} {results : Results} (stamp : Stamp now)
    (timed : results.Timed) :
    (∀ c ∈ declaration.toList ++ (pieces now results).flatMap Piece.write, Allowed c) ↔
      PrintableResults results := by
  have opening : ∀ c ∈ declaration.toList, Allowed c := (by decide : Printable declaration)
  have title : Printable "BDD Core Test Results" := by decide
  have start : Stamp (results.startTime.getD now) := timed.start_getD stamp
  have time := printable_time start (timed.finish_getD stamp)
  have tags : (∀ c ∈ (pieces now results).flatMap Piece.write, Allowed c) ↔
      AllPrintable (pieces now results) := by
    rw [List.forall_mem_flatMap]
    exact forall₂_congr fun piece member => allowed_piece (plain_pieces piece member)
  rw [List.forall_mem_append, and_iff_right opening, tags, pieces, allPrintable_enclosed,
    allPrintable_flatMap]
  simp only [rootTag, List.map_cons, List.map_nil, List.forall_mem_cons, List.not_mem_nil,
    false_implies, implies_true, and_true, printable_toString, time, title, true_and]
  exact forall₂_congr fun feature member => suite_printable (timed.features feature member)

/-- The report on collected results is a document in all its tags and attributes. It is well-formed
if the titles and messages are printable, and only then. -/
theorem wellFormed_report_iff {results : Results} {now : Moment} (clock : Moment) (directory : Path)
    (collected : results.Collected) (dated : now.Dated) :
    ∃ file, generateReport clock directory (results.value now.text) "junit" = .ok file ∧
      Document file.content.toList ∧ (WellFormed file.content.toList ↔ PrintableResults results) := by
  obtain ⟨file, generated, content⟩ := report_eq clock directory dated.stamp collected.timed
  have document : Document file.content.toList := content ▸ document_report now.text results
  refine ⟨file, generated, document, ?_⟩
  rw [← report_printable dated.stamp collected.timed, ← content]
  exact ⟨WellFormed.allowed, WellFormed.mk document⟩

theorem wellFormed_report_markup :
    markupWorld.results.Collected ∧ markupWorld.clock.Dated ∧
    ∃ file, generateReport markupWorld.clock ⟨"", []⟩ markupWorld.collected "junit" = .ok file ∧
      WellFormed file.content.toList := by
  obtain ⟨collected, dated⟩ := markupWorld_collected
  obtain ⟨file, generated, _, formed⟩ :=
    wellFormed_report_iff markupWorld.clock ⟨"", []⟩ collected dated
  exact ⟨collected, dated, file, generated, formed.2 (by decide +kernel)⟩

/-- A suite whose only step fails with a message in red, as a terminal has it. -/
def redSuite : Suite :=
  ⟨"F", "", [], [⟨"S", [textStep "red" [.raise .value (some "\x1b[31mred")]], [], false⟩]⟩

/-- Where a step puts a control character into the message of its error, the report is not
well-formed. -/
theorem red_not_wellFormed : ∃ (passed : World.History) (world : World),
    World.Run quietlyAside (World.initial ⟨0, none⟩) passed world ∧
    ∃ file, generateReport world.clock ⟨"", []⟩ world.collected "junit" = .ok file ∧
      ¬WellFormed file.content.toList := by
  have collected : (runWatched redSuite).2.results.Collected :=
    .of_run (run_runWatched redSuite) (all_of_checked (by decide +kernel))
  have stamp : Stamp (runWatched redSuite).2.now :=
    have dated : (runWatched redSuite).2.clock.Dated := by decide +kernel
    dated.stamp
  obtain ⟨file, generated, content⟩ :=
    report_eq (runWatched redSuite).2.clock ⟨"", []⟩ stamp collected.timed
  refine ⟨_, _, run_runWatched redSuite, file, generated, fun formed => ?_⟩
  have printable := (report_printable stamp collected.timed).1 (content ▸ formed.allowed)
  revert printable
  decide +kernel

end FeatureRunner.Junit.Xml
