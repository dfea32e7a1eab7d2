import FeatureRunner.Proofs.Command.Agreement
import FeatureRunner.Proofs.Report.Junit

/-!
Reading a report back. A text is split into tags at its angle brackets and a tag into values at its
quotes, and the entities in values are replaced. What the tags of a report on collected results tell
is what the results have: every feature with its scenarios, and how these stand.

Main statement: `Junit.readBack_report`.
-/

namespace FeatureRunner.Junit
open FeatureRunner.Calendar

/-! ## The reader -/

/-- The characters that entities stand for. -/
def entities : List (String × Char) :=
  [("amp", '&'), ("lt", '<'), ("gt", '>'), ("#39", '\''), ("#34", '"')]

/-- What an entity stands for; one that is not known stays as it is. -/
def entityText (name : List Char) : List Char :=
  match entities.find? (·.1.toList == name) with
  | some (_, c) => [c]
  | none => '&' :: (name ++ [';'])

/-- A text with the entity replaced that it begins with. -/
def replaceFirst (text : List Char) : List Char :=
  entityText (text.takeWhile (· != ';')) ++ (text.dropWhile (· != ';')).tail

/-- A text with its entities replaced. -/
def unescape (text : List Char) : List Char :=
  (text.splitOn '&').headD [] ++ (text.splitOn '&').tail.flatMap replaceFirst

/-- Attributes from the parts of a tag: by turns one with a key, and a value. -/
def attributesOf : List (List Char) → List (String × String)
  | front :: value :: rest =>
    (String.ofList (front.tail.takeWhile (· != '=')), String.ofList (unescape value)) ::
      attributesOf rest
  | _ => []

/-- Whether a character stands in the name of a tag. -/
def inName (c : Char) : Bool :=
  c != ' ' && c != '/'

/-- The tag from what stands between angle brackets. A tag that closes an element has no name. -/
def readTag (body : List Char) : Tag :=
  ⟨String.ofList (body.takeWhile inName), attributesOf ((body.dropWhile inName).splitOn '"')⟩

/-- The tags of a text. -/
def tagsOf (text : List Char) : List Tag :=
  (text.splitOn '<').tail.map fun part => readTag (part.takeWhile (· != '>'))

/-- How a scenario stands as a report tells it. -/
inductive Standing
  | failed (message : String)
  | skipped
  | neither
  deriving DecidableEq

/-- What a report tells about a scenario. -/
structure CaseAccount where
  title : String
  standing : Standing
  deriving DecidableEq

/-- What a report tells about a feature. -/
structure SuiteAccount where
  title : String
  cases : List CaseAccount
  deriving DecidableEq

/-- What has been read from some place in a report on: whole suites, cases of the suite around the
place, and how the case around the place stands. -/
structure Reading where
  standing : Standing
  cases : List CaseAccount
  suites : List SuiteAccount

def Tag.value (tag : Tag) (key : String) : String :=
  (tag.attributes.lookup key).getD ""

/-- Takes in the tag before what has been read. -/
def Reading.add (tag : Tag) (reading : Reading) : Reading :=
  if tag.name = "failure" then { reading with standing := .failed (tag.value "message") }
  else if tag.name = "skipped" then { reading with standing := .skipped }
  else if tag.name = "testcase" then
    { reading with
      standing := .neither, cases := ⟨tag.value "name", reading.standing⟩ :: reading.cases }
  else if tag.name = "testsuite" then
    { reading with cases := [], suites := ⟨tag.value "name", reading.cases⟩ :: reading.suites }
  else reading

def Reading.empty : Reading := ⟨.neither, [], []⟩

/-- The suites that a text tells of. Its tags are taken in from the last to the first. -/
def readBack (text : String) : List SuiteAccount :=
  ((tagsOf text.toList).foldr Reading.add .empty).suites

/-! ## Where texts are cut -/

section

variable {separator : Char} {front : List Char} (bare : separator ∉ front) (rest : List Char)
include bare

theorem ne_of_not_mem : ∀ c ∈ front, (c != separator) = true := by
  intro c member
  simpa using fun same : c = separator => bare (same ▸ member)

theorem takeWhile_ne :
    (front ++ separator :: rest).takeWhile (· != separator) = front := by
  rw [List.takeWhile_append_of_pos (ne_of_not_mem bare)]
  simp

theorem dropWhile_ne :
    (front ++ separator :: rest).dropWhile (· != separator) = separator :: rest := by
  rw [List.dropWhile_append_of_pos (ne_of_not_mem bare)]
  simp

theorem splitOn_append :
    (front ++ rest).splitOn separator = (rest.splitOn separator).modifyHead (front ++ ·) := by
  induction front with
  | nil => exact List.modifyHead_id ▸ rfl
  | cons c front ih =>
    obtain ⟨apart, bare⟩ := not_or.1 (List.mem_cons.not.1 bare)
    rw [List.cons_append, List.splitOn_cons_eq_if_modifyHead, if_neg (by simpa using Ne.symm apart),
      ih bare, List.modifyHead_modifyHead]
    rfl

end

/-! ## Entities -/

theorem unescape_cons {c : Char} (plain : c ≠ '&') (text : List Char) :
    unescape (c :: text) = c :: unescape text := by
  have bare : '&' ∉ [c] := by simpa using Ne.symm plain
  have split := splitOn_append bare text
  rw [List.singleton_append] at split
  rw [unescape, split, unescape]
  cases known : text.splitOn '&' with
  | nil => exact absurd known (List.splitOn_ne_nil '&' text)
  | cons first parts => rfl

theorem unescape_entity {name : List Char} (bare : '&' ∉ name) (whole : ';' ∉ name) (text : List Char) :
    unescape ('&' :: (name ++ ';' :: text)) = entityText name ++ unescape text := by
  have bare' : '&' ∉ name ++ [';'] := by simp [bare]
  have split := splitOn_append bare' text
  rw [List.append_assoc, List.singleton_append] at split
  have split' : ('&' :: (name ++ ';' :: text)).splitOn '&' =
      [] :: (name ++ ';' :: text).splitOn '&' :=
    List.splitOn_append_cons_self_of_not_mem (List.not_mem_nil) _
  rw [unescape, split', split, unescape]
  cases known : text.splitOn '&' with
  | nil => exact absurd known (List.splitOn_ne_nil '&' text)
  | cons first parts =>
    simp [replaceFirst, takeWhile_ne whole, dropWhile_ne whole]

/-- Replacing entities undoes the writing as content. -/
theorem unescape_escaped (text : List Char) : unescape (escaped text) = text := by
  induction text with
  | nil => rfl
  | cons c text ih =>
    have written : escaped (c :: text) = Chunk.escapeChar c ++ escaped text := rfl
    have entity (name : String) (bare : '&' ∉ name.toList) (whole : ';' ∉ name.toList)
        (stands : entityText name.toList = [c]) :
        unescape ('&' :: (name.toList ++ ';' :: escaped text)) = c :: text := by
      rw [unescape_entity bare whole, stands, ih]
      rfl
    rw [written, Chunk.escapeChar]
    simp only [beq_iff_eq]
    split_ifs with amp lt gt apostrophe quote
    · exact entity "amp" (by decide) (by decide) (amp ▸ rfl)
    · exact entity "lt" (by decide) (by decide) (lt ▸ rfl)
    · exact entity "gt" (by decide) (by decide) (gt ▸ rfl)
    · exact entity "#39" (by decide) (by decide) (apostrophe ▸ rfl)
    · exact entity "#34" (by decide) (by decide) (quote ▸ rfl)
    · rw [List.singleton_append, unescape_cons amp, ih]

theorem not_mem_escaped (mark : Char) (known : mark ∈ special) (other : mark ≠ '&') (text : List Char) :
    mark ∉ escaped text := by
  have entities : ∀ c ∈ special, ∀ mark ∈ special, mark ∈ Chunk.escapeChar c → mark = '&' := by
    simp [special, Chunk.escapeChar]
  intro member
  obtain ⟨c, _, inside⟩ := List.mem_flatMap.1 member
  by_cases plain : c ∈ special
  · exact other (entities c plain mark known inside)
  · rw [escapeChar_plain plain, List.mem_singleton] at inside
    exact plain (inside ▸ known)

/-! ## Tags -/

/-- What the reader sees of a token. -/
def Token.seen : Token → Tag
  | opens tag => tag
  | closes _ => ⟨"", []⟩
  | stands tag => tag

/-- What stands between the angle brackets of a token. -/
def Token.body : Token → List Char
  | opens tag => tag.write
  | closes name => '/' :: name.toList
  | stands tag => tag.write ++ ['/']

theorem Piece.write_eq (piece : Piece) :
    piece.write = piece.space.toList ++ '<' :: (piece.token.body ++ ['>']) := by
  cases piece with
  | mk space token => cases token <;> simp [Piece.write, Token.write, Token.body]

/-- The name of a token and its keys. -/
def Token.words : Token → List String
  | opens tag => tag.name :: tag.attributes.map (·.1)
  | closes name => [name]
  | stands tag => tag.name :: tag.attributes.map (·.1)

/-- A text of letters. -/
def Word (text : String) : Prop :=
  ∀ c ∈ text.toList, c.isAlpha = true

theorem Word.not_mem {text : String} (word : Word text) {c : Char} (other : c.isAlpha = false) :
    c ∉ text.toList := by
  intro member
  simpa [other] using word c member

theorem attributesOf_write {attributes : List (String × String)}
    (words : ∀ pair ∈ attributes, Word pair.1) {rest : List Char} (bare : '"' ∉ rest) :
    attributesOf ((attributes.flatMap (fun (key, value) =>
      ' ' :: (key.toList ++ '=' :: '"' :: (escaped value.toList ++ ['"']))) ++ rest).splitOn '"') =
      attributes := by
  induction attributes with
  | nil =>
    rw [List.flatMap_nil, List.nil_append, List.splitOn_eq_singleton bare]
    rfl
  | cons pair attributes ih =>
    obtain ⟨key, value⟩ := pair
    obtain ⟨word, words⟩ := List.forall_mem_cons.1 words
    have front : '"' ∉ ' ' :: (key.toList ++ ['=']) := by simp [word.not_mem]
    have content := not_mem_escaped '"' (by decide) (by decide) value.toList
    have equal : '=' ∉ key.toList := word.not_mem rfl
    have cut := List.splitOn_append_cons_self_of_not_mem front
    have cut' := List.splitOn_append_cons_self_of_not_mem content
    simp only [List.flatMap_cons, List.cons_append, List.append_assoc, List.nil_append] at cut cut' ⊢
    rw [cut, cut', attributesOf, ih words, unescape_escaped]
    simp [takeWhile_ne equal]

/-- A tag is read as it was written, whether a slash is behind it or not. -/
theorem readTag_write {tag : Tag} (named : Word tag.name) (words : ∀ pair ∈ tag.attributes, Word pair.1)
    {rest : List Char} (slash : rest = [] ∨ rest = ['/']) : readTag (tag.write ++ rest) = tag := by
  have inside : ∀ c ∈ tag.name.toList, inName c = true := by
    intro c member
    have alpha := named c member
    simp only [inName, Bool.and_eq_true, bne_iff_ne]
    constructor <;>
    · rintro rfl
      simp at alpha
  have bare : '"' ∉ rest := by rcases slash with rfl | rfl <;> simp
  rw [readTag, Tag.write, List.append_assoc, List.takeWhile_append_of_pos inside,
    List.dropWhile_append_of_pos inside]
  -- What is behind the name begins with a blank or a slash, or there is nothing.
  set behind := tag.attributes.flatMap _ ++ rest with written
  have outside : behind.takeWhile inName = [] ∧ behind.dropWhile inName = behind := by
    cases pairs : tag.attributes with
    | nil => rcases slash with rfl | rfl <;> simp [written, pairs, inName]
    | cons pair pairs' => simp [written, pairs, inName]
  rw [outside.1, outside.2, List.append_nil, String.ofList_toList, written,
    attributesOf_write words bare]

theorem readTag_body {token : Token} (words : ∀ word ∈ token.words, Word word) :
    readTag token.body = token.seen := by
  cases token with
  | opens tag =>
    obtain ⟨named, keys⟩ := List.forall_mem_cons.1 words
    have read := readTag_write named (List.forall_mem_map.1 keys) (.inl rfl)
    rwa [List.append_nil] at read
  | closes name =>
    have slash : '"' ∉ '/' :: name.toList := by
      simpa using (words name List.mem_cons_self).not_mem (c := '"') rfl
    simp [readTag, Token.body, Token.seen, inName, List.splitOn_eq_singleton slash, attributesOf]
  | stands tag =>
    obtain ⟨named, keys⟩ := List.forall_mem_cons.1 words
    exact readTag_write named (List.forall_mem_map.1 keys) (.inr rfl)

/-- Angle brackets are not within tokens. -/
theorem not_mem_body {token : Token} (words : ∀ word ∈ token.words, Word word) {mark : Char}
    (angle : mark = '<' ∨ mark = '>') : mark ∉ token.body := by
  have other : mark.isAlpha = false := by rcases angle with rfl | rfl <;> rfl
  have content (value : String) : mark ∉ escaped value.toList := by
    rcases angle with rfl | rfl <;> exact not_mem_escaped _ (by decide) (by decide) _
  have plain : mark ≠ ' ' ∧ mark ≠ '=' ∧ mark ≠ '"' ∧ mark ≠ '/' := by
    rcases angle with rfl | rfl <;> decide
  have tags {tag : Tag} (named : Word tag.name) (keys : ∀ pair ∈ tag.attributes, Word pair.1) :
      mark ∉ tag.write := by
    intro member
    rcases List.mem_append.1 member with name | attributes
    · exact named.not_mem other name
    · obtain ⟨⟨key, value⟩, known, inside⟩ := List.mem_flatMap.1 attributes
      have absent := (keys _ known).not_mem other
      simp_all
  cases token with
  | opens tag =>
    obtain ⟨named, keys⟩ := List.forall_mem_cons.1 words
    exact tags named (List.forall_mem_map.1 keys)
  | closes name =>
    have absent := (words name List.mem_cons_self).not_mem other
    simp [Token.body, plain, absent]
  | stands tag =>
    obtain ⟨named, keys⟩ := List.forall_mem_cons.1 words
    simp [Token.body, plain, tags named (List.forall_mem_map.1 keys)]

/-- The space of a piece is blank, and its name and keys are words. -/
structure Piece.Plain (piece : Piece) : Prop where
  blank : ∀ c ∈ piece.space.toList, c.isWhitespace = true
  words : ∀ word ∈ piece.token.words, Word word

theorem plain_pieces {now : String} {results : Results} : ∀ piece ∈ pieces now results, piece.Plain := by
  have standing (scenario : ScenarioResult) : ∀ piece ∈ standingPieces scenario, piece.Plain := by
    unfold standingPieces
    cases scenario.status with
    | failed =>
      rw [forall_mem_enclosed]
      exact ⟨⟨⟨by simp, by simp [Token.words, Word]⟩, ⟨by simp, by simp [Token.words, Word]⟩⟩,
        List.forall_mem_nil _⟩
    | skipped =>
      rw [List.forall_mem_singleton]
      exact ⟨by simp, by simp [Token.words, Word]⟩
    | _ => nofun
  have cases (feature : String) (scenario : ScenarioResult) :
      ∀ piece ∈ casePieces feature scenario, piece.Plain := by
    rw [casePieces, forall_mem_enclosed]
    exact ⟨⟨⟨by simp, by simp [Token.words, caseTag, Word]⟩,
      ⟨by simp, by simp [Token.words, caseTag, Word]⟩⟩, standing scenario⟩
  have suites (feature : FeatureResult) : ∀ piece ∈ suitePieces feature, piece.Plain := by
    rw [suitePieces, forall_mem_enclosed, List.forall_mem_flatMap]
    exact ⟨⟨⟨by simp, by simp [Token.words, suiteTag, Word]⟩,
      ⟨by simp, by simp [Token.words, suiteTag, Word]⟩⟩, fun scenario _ => cases feature.feature scenario⟩
  rw [pieces, forall_mem_enclosed, List.forall_mem_flatMap]
  exact ⟨⟨⟨by simp, by simp [Token.words, rootTag, Word]⟩,
    ⟨by simp, by simp [Token.words, rootTag, Word]⟩⟩, fun feature _ => suites feature⟩

/-- What stands between the angle brackets of a text is what its pieces have there. -/
theorem bodies_eq {pieces : List Piece} (plain : ∀ piece ∈ pieces, piece.Plain) {front : List Char}
    (bare : '<' ∉ front) (closed : '>' ∉ front) :
    ((front ++ '>' :: pieces.flatMap Piece.write).splitOn '<').map
      (fun part => part.takeWhile (· != '>')) = front :: pieces.map fun piece => piece.token.body := by
  -- A part begins behind an opening bracket and has the space of the next piece at its end.
  induction pieces generalizing front with
  | nil =>
    have whole : '<' ∉ front ++ ['>'] := by simp [bare]
    rw [List.flatMap_nil, List.splitOn_eq_singleton whole]
    simp [takeWhile_ne closed]
  | cons piece pieces ih =>
    obtain ⟨here, plain⟩ := List.forall_mem_cons.1 plain
    have part : '<' ∉ front ++ '>' :: piece.space.toList := by
      have space : '<' ∉ piece.space.toList := fun member => by simpa using here.blank '<' member
      simp [bare, space]
    have cut := List.splitOn_append_cons_self_of_not_mem part
      (piece.token.body ++ '>' :: pieces.flatMap Piece.write)
    have rest := ih plain (not_mem_body here.words (.inl rfl)) (not_mem_body here.words (.inr rfl))
    simp only [List.flatMap_cons, Piece.write_eq, List.append_assoc, List.cons_append, List.nil_append]
      at cut rest ⊢
    rw [cut, List.map_cons, rest]
    simp [takeWhile_ne closed]

/-- The tags of a text are those that its pieces show. -/
theorem tags_eq {pieces : List Piece} (plain : ∀ piece ∈ pieces, piece.Plain) {front : List Char}
    (bare : '<' ∉ front) (closed : '>' ∉ front) :
    ((front ++ '>' :: pieces.flatMap Piece.write).splitOn '<').map
      (fun part => readTag (part.takeWhile (· != '>'))) =
      readTag front :: pieces.map fun piece => piece.token.seen := by
  have tags := congrArg (List.map readTag) (bodies_eq plain bare closed)
  have seen : pieces.map (fun piece => readTag piece.token.body) =
      pieces.map fun piece => piece.token.seen :=
    List.map_congr_left fun piece member => readTag_body (plain piece member).words
  rwa [List.map_map, List.map_cons, List.map_map, Function.comp_def, Function.comp_def, seen] at tags

/-! ## What the tags tell -/

/-- How a scenario stands. -/
def standingOf (scenario : ScenarioResult) : Standing :=
  match scenario.status with
  | .failed => .failed (scenario.error.getD "Test failed")
  | .skipped => .skipped
  | _ => .neither

/-- What is to be told about a scenario. -/
def caseAccount (scenario : ScenarioResult) : CaseAccount :=
  ⟨scenario.name, standingOf scenario⟩

/-- What is to be told about a feature. -/
def suiteAccount (feature : FeatureResult) : SuiteAccount :=
  ⟨feature.feature, feature.scenarios.map caseAccount⟩

namespace Reading

/-- What has been read from some pieces on. -/
def addAll (pieces : List Piece) (reading : Reading) : Reading :=
  pieces.foldr (fun piece => add piece.token.seen) reading

theorem addAll_append (first rest : List Piece) (reading : Reading) :
    addAll (first ++ rest) reading = addAll first (addAll rest reading) :=
  List.foldr_append

theorem addAll_enclosed (space space' : String) (tag : Tag) (pieces : List Piece) (reading : Reading) :
    addAll (enclosed space space' tag pieces) reading = add tag (addAll pieces reading) := by
  change add tag (addAll (pieces ++ [⟨space', .closes tag.name⟩]) reading) = _
  rw [addAll_append]
  rfl

variable (cases : List CaseAccount) (suites : List SuiteAccount)

theorem standing_read (scenario : ScenarioResult) :
    addAll (standingPieces scenario) ⟨.neither, cases, suites⟩ =
      ⟨standingOf scenario, cases, suites⟩ := by
  unfold standingPieces standingOf
  cases scenario.status <;> rfl

theorem case_read (feature : String) (scenario : ScenarioResult) :
    addAll (casePieces feature scenario) ⟨.neither, cases, suites⟩ =
      ⟨.neither, caseAccount scenario :: cases, suites⟩ := by
  rw [casePieces, addAll_enclosed, standing_read]
  rfl

theorem cases_read (feature : String) (scenarios : List ScenarioResult) :
    addAll (scenarios.flatMap (casePieces feature)) ⟨.neither, cases, suites⟩ =
      ⟨.neither, scenarios.map caseAccount ++ cases, suites⟩ := by
  induction scenarios with
  | nil => rfl
  | cons scenario scenarios ih =>
    rw [List.flatMap_cons, addAll_append, ih, case_read]
    rfl

theorem suite_read (feature : FeatureResult) :
    addAll (suitePieces feature) ⟨.neither, [], suites⟩ =
      ⟨.neither, [], suiteAccount feature :: suites⟩ := by
  rw [suitePieces, addAll_enclosed, cases_read, List.append_nil]
  rfl

theorem suites_read (features : List FeatureResult) :
    addAll (features.flatMap suitePieces) .empty = ⟨.neither, [], features.map suiteAccount⟩ := by
  induction features with
  | nil => rfl
  | cons feature features ih =>
    rw [List.flatMap_cons, addAll_append, ih, suite_read]
    rfl

/-- The pieces of a report tell what its results have. -/
theorem pieces_read (now : String) (results : Results) :
    (addAll (pieces now results) .empty).suites = results.features.map suiteAccount := by
  rw [pieces, addAll_enclosed, suites_read]
  rfl

end Reading

/-- A report can be read back: it tells the features with their scenarios, in order and as they
stand, whatever texts are in their titles and messages. -/
theorem readBack_report {results : Results} {now : Moment} (clock : Moment) (directory : Path)
    (collected : results.Collected) (dated : now.Dated) :
    ∃ file, generateReport clock directory (results.value now.text) "junit" = .ok file ∧
      readBack file.content = results.features.map suiteAccount := by
  obtain ⟨file, generated, content⟩ := report_eq clock directory dated.stamp collected.timed
  refine ⟨file, generated, ?_⟩
  have split : (declaration.toList ++ (pieces now.text results).flatMap Piece.write).splitOn '<' =
      [] :: ("?xml version=\"1.0\" encoding=\"UTF-8\"?".toList ++
        '>' :: (pieces now.text results).flatMap Piece.write).splitOn '<' :=
    List.splitOn_append_cons_self_of_not_mem List.not_mem_nil _
  rw [readBack, tagsOf, content, split, List.tail_cons, tags_eq plain_pieces (by decide) (by decide),
    List.foldr_cons, List.foldr_map]
  exact Reading.pieces_read now.text results

/-- A suite is run while the collector is attached. -/
def runWatched (suite : Suite) : World.History × World :=
  World.play 300 (watchingWorld.spawn suite.run.toProcess).1

theorem run_runWatched (suite : Suite) : World.Run quietlyAside (World.initial ⟨0, none⟩)
    (runWatched suite).1 (runWatched suite).2 := by
  have watching : World.Run quietlyAside (World.initial ⟨0, none⟩) [] watchingWorld :=
    World.Run.refl.between (.outside ⟨.alters rfl, rfl⟩)
  have spawned := watching.between (.outside ⟨.spawns (suite.run_obeys mute_runs).toProcess, rfl⟩)
  have played := spawned.trans (World.Run.play 300 _)
  rwa [List.nil_append] at played

/-- A suite whose titles and messages look like markup. -/
def markupSuite : Suite :=
  ⟨"R&D \"core\"", "", [],
    [⟨"<skipped/>", [textStep "raise" [.raise .value (some "</failure>\n&lt;\"'")]], [], false⟩,
      ⟨"a > b", [], [], true⟩]⟩

/-- What is there when it has been run. -/
def markupWorld : World :=
  (runWatched markupSuite).2

theorem markupWorld_collected : markupWorld.results.Collected ∧ markupWorld.clock.Dated :=
  ⟨.of_run (run_runWatched markupSuite) (all_of_checked (by decide +kernel)), by decide +kernel⟩

theorem readBack_report_markup :
    markupWorld.results.Collected ∧ markupWorld.clock.Dated ∧
    ∃ file, generateReport markupWorld.clock ⟨"", []⟩ markupWorld.collected "junit" = .ok file ∧
      readBack file.content = [⟨"R&D \"core\"",
        [⟨"<skipped/>", .failed "</failure>\n&lt;\"'"⟩, ⟨"a > b", .skipped⟩]⟩] := by
  obtain ⟨collected, dated⟩ := markupWorld_collected
  obtain ⟨file, generated, read⟩ := readBack_report markupWorld.clock ⟨"", []⟩ collected dated
  refine ⟨collected, dated, file, generated, read.trans ?_⟩
  decide +kernel

end FeatureRunner.Junit
