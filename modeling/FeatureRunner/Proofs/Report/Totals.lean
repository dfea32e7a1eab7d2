import FeatureRunner.Proofs.Report.ReadBack
import Mathlib.Algebra.Ring.Nat

/-!
Totals of a report. A text is read as a tree of elements, from its last tag to its first: a tag that
closes an element makes room for what is within it, and the tag that opens it takes it in. In the tree
of a report on collected results, the numbers that the whole and its suites give are those of the
elements that are there.

Main statement: `Junit.totals_add_up`.
-/

namespace FeatureRunner.Junit
open FeatureRunner.Calendar

/-! ## Elements -/

/-- An element: its tag and the elements within it. -/
inductive Node
  | mk (tag : Tag) (inside : List Node)

namespace Node

def tag : Node → Tag
  | mk tag _ => tag

mutual

/-- An element and all that are within it. -/
def all : Node → List Node
  | mk tag inside => mk tag inside :: allOf inside

def allOf : List Node → List Node
  | [] => []
  | node :: rest => all node ++ allOf rest

end

/-- The elements of a name among an element and those within it. -/
def named (node : Node) (name : String) : List Node :=
  node.all.filter (·.tag.name == name)

end Node

/-- The number that a text writes in decimal digits. -/
def numeral? (text : String) : Option Nat :=
  if !text.isEmpty && text.toList.all Char.isDigit then some (Nat.ofDigitChars 10 text.toList 0)
  else none

/-- The number that an attribute gives. -/
def Tag.number? (tag : Tag) (key : String) : Option Nat :=
  (tag.attributes.lookup key).bind numeral?

/-- The sum of the numbers that some elements give. -/
def sum? (key : String) (nodes : List Node) : Option Nat :=
  (nodes.mapM fun (node : Node) => node.tag.number? key).map List.sum

/-! ## The reader -/

/-- The token that stands between angle brackets; a declaration is none. -/
def readToken? (body : List Char) : Option Token :=
  match body with
  | '?' :: _ => none
  | '/' :: c :: rest => some (.closes (String.ofList (c :: rest)))
  | _ => some (if body.getLast? = some '/' then .stands (readTag body) else .opens (readTag body))

/-- What has been read from some place on: the elements behind it, and for each element around it the
name of this element and the elements behind it. -/
structure Growth where
  behind : List Node
  around : List (String × List Node)

/-- Takes in the token before what has been read. -/
def Growth.add : Token → Growth → Option Growth
  | .closes name, ⟨behind, around⟩ => some ⟨[], (name, behind) :: around⟩
  | .stands tag, ⟨behind, around⟩ => some ⟨.mk tag [] :: behind, around⟩
  | .opens tag, ⟨inside, (name, behind) :: around⟩ =>
    if tag.name = name then some ⟨.mk tag inside :: behind, around⟩ else none
  | .opens _, ⟨_, []⟩ => none

/-- What has been read from some tokens on. -/
def Growth.addAll (tokens : List Token) (growth : Option Growth) : Option Growth :=
  tokens.foldr (fun token growth => growth.bind (add token)) growth

/-- The tokens of a text. -/
def tokensOf (text : List Char) : List Token :=
  (text.splitOn '<').tail.filterMap fun part => readToken? (part.takeWhile (· != '>'))

/-- The elements of a text, if each is closed by a tag of its name. -/
def elementsOf (text : String) : Option (List Node) :=
  match Growth.addAll (tokensOf text.toList) (some ⟨[], []⟩) with
  | some ⟨elements, []⟩ => some elements
  | _ => none

/-- The numbers that an element gives are those of the elements within it. -/
structure Node.AddsUp (root : Node) : Prop where
  name : root.tag.name = "testsuites"
  tests : root.tag.number? "tests" = sum? "tests" (root.named "testsuite")
  cases : root.tag.number? "tests" = some (root.named "testcase").length
  failures : root.tag.number? "failures" = sum? "failures" (root.named "testsuite")
  failed : root.tag.number? "failures" = some (root.named "failure").length
  skipped : root.tag.number? "skipped" = some (root.named "skipped").length
  suites : ∀ suite ∈ root.named "testsuite",
    suite.tag.number? "tests" = some (suite.named "testcase").length ∧
    suite.tag.number? "failures" = some (suite.named "failure").length

/-! ## Reading tokens -/

/-- The last that is written of a tag belongs to its name or is a quote. -/
theorem getLast?_write {tag : Tag} (word : Word tag.name) : tag.write.getLast? ≠ some '/' := by
  rcases List.eq_nil_or_concat tag.attributes with none | ⟨front, ⟨key, value⟩, last⟩
  · rw [Tag.write, none, List.flatMap_nil, List.append_nil]
    exact fun slash => word.not_mem rfl (List.mem_of_getLast? slash)
  · have quote : tag.write.getLast? = some '"' := by
      simp [Tag.write, last, List.getLast?_append, List.getLast?_cons]
    rw [quote]
    decide

theorem readToken?_opens {tag : Tag} (word : Word tag.name) (some : tag.name ≠ "")
    (words : ∀ pair ∈ tag.attributes, Word pair.1) :
    readToken? (Token.opens tag).body = Option.some (.opens tag) := by
  have all : ∀ text ∈ (Token.opens tag).words, Word text :=
    List.forall_mem_cons.2 ⟨word, List.forall_mem_map.2 words⟩
  have read : readTag tag.write = tag := readTag_body all
  have last := getLast?_write word
  obtain ⟨first, rest, known⟩ := List.exists_cons_of_ne_nil (mt String.toList_eq_nil_iff.1 some)
  have alpha : first.isAlpha = true := word first (known ▸ List.mem_cons_self)
  have written : tag.write = first :: (rest ++ tag.write.drop tag.name.toList.length) := by
    rw [Tag.write, List.drop_left, known]
    rfl
  change readToken? tag.write = _
  unfold readToken?
  split
  · rename_i same
    cases (List.cons.inj (written.symm.trans same)).1
    cases alpha
  · rename_i same
    cases (List.cons.inj (written.symm.trans same)).1
    cases alpha
  · rw [if_neg last, read]

theorem readToken?_closes {name : String} (some : name ≠ "") :
    readToken? (Token.closes name).body = Option.some (.closes name) := by
  obtain ⟨first, rest, known⟩ := List.exists_cons_of_ne_nil (mt String.toList_eq_nil_iff.1 some)
  rw [Token.body, known, readToken?, ← known, String.ofList_toList]

/-! ## Growing -/

theorem Growth.addAll_append (first rest : List Token) (growth : Option Growth) :
    addAll (first ++ rest) growth = addAll first (addAll rest growth) :=
  List.foldr_append

/-- The tokens of some pieces as they are read. -/
def readAll (pieces : List Piece) : List Token :=
  pieces.filterMap fun piece => readToken? piece.token.body

/-- Pieces are read as elements, whatever is behind and around them. -/
def Grows (pieces : List Piece) (nodes : List Node) : Prop :=
  ∀ behind around, Growth.addAll (readAll pieces) (some ⟨behind, around⟩) =
    some ⟨nodes ++ behind, around⟩

namespace Grows

theorem nil : Grows [] [] :=
  fun _ _ => rfl

theorem append {first rest : List Piece} {nodes nodes' : List Node} (grows : Grows first nodes)
    (grows' : Grows rest nodes') : Grows (first ++ rest) (nodes ++ nodes') := by
  intro behind around
  rw [readAll, List.filterMap_append, Growth.addAll_append]
  rw [← readAll, ← readAll, grows', grows, List.append_assoc]

theorem flatMap {α : Type} {items : List α} {pieces : α → List Piece} {node : α → Node}
    (each : ∀ item, Grows (pieces item) [node item]) :
    Grows (items.flatMap pieces) (items.map node) := by
  induction items with
  | nil => exact nil
  | cons item items ih => exact (each item).append ih

/-- What is enclosed in a tag is one element. -/
theorem enclosed {space space' : String} {tag : Tag} {pieces : List Piece} {nodes : List Node}
    (word : Word tag.name) (some : tag.name ≠ "") (words : ∀ pair ∈ tag.attributes, Word pair.1)
    (grows : Grows pieces nodes) : Grows (enclosed space space' tag pieces) [.mk tag nodes] := by
  intro behind around
  have tokens : readAll (Junit.enclosed space space' tag pieces) =
      .opens tag :: (readAll pieces ++ [.closes tag.name]) := by
    simp [readAll, Junit.enclosed, readToken?_opens word some words, readToken?_closes some]
  rw [tokens]
  change (Growth.addAll (readAll pieces ++ [.closes tag.name]) _).bind _ = _
  rw [Growth.addAll_append]
  change (Growth.addAll (readAll pieces) (Option.some ⟨[], (tag.name, behind) :: around⟩)).bind _ = _
  rw [grows, List.append_nil]
  exact if_pos rfl

end Grows

/-! ## The elements of a report -/

def standingNodes (scenario : ScenarioResult) : List Node :=
  match scenario.status with
  | .failed => [.mk ⟨"failure", [("message", message scenario)]⟩ []]
  | .skipped => [.mk ⟨"skipped", []⟩ []]
  | _ => []

def caseNode (feature : String) (scenario : ScenarioResult) : Node :=
  .mk (caseTag feature scenario) (standingNodes scenario)

def suiteNode (feature : FeatureResult) : Node :=
  .mk (suiteTag feature) (feature.scenarios.map (caseNode feature.feature))

def rootNode (now : String) (results : Results) : Node :=
  .mk (rootTag now results) (results.features.map suiteNode)

theorem grows_standing (scenario : ScenarioResult) :
    Grows (standingPieces scenario) (standingNodes scenario) := by
  unfold standingPieces standingNodes
  cases scenario.status with
  | failed => exact .enclosed (by simp [Word]) (by simp) (by simp [Word]) .nil
  | skipped => exact fun _ _ => rfl
  | _ => exact .nil

theorem grows_case (feature : String) (scenario : ScenarioResult) :
    Grows (casePieces feature scenario) [caseNode feature scenario] :=
  .enclosed (by simp [caseTag, Word]) (by simp [caseTag]) (by simp [caseTag, Word])
    (grows_standing scenario)

theorem grows_suite (feature : FeatureResult) : Grows (suitePieces feature) [suiteNode feature] :=
  .enclosed (by simp [suiteTag, Word]) (by simp [suiteTag]) (by simp [suiteTag, Word])
    (.flatMap (grows_case feature.feature))

theorem grows_report (now : String) (results : Results) :
    Grows (pieces now results) [rootNode now results] :=
  .enclosed (by simp [rootTag, Word]) (by simp [rootTag]) (by simp [rootTag, Word])
    (.flatMap grows_suite)

theorem elementsOf_report {text : String} {now : String} {results : Results}
    (content : text.toList = declaration.toList ++ (pieces now results).flatMap Piece.write) :
    elementsOf text = some [rootNode now results] := by
  have split : (declaration.toList ++ (pieces now results).flatMap Piece.write).splitOn '<' =
      [] :: ("?xml version=\"1.0\" encoding=\"UTF-8\"?".toList ++
        '>' :: (pieces now results).flatMap Piece.write).splitOn '<' :=
    List.splitOn_append_cons_self_of_not_mem List.not_mem_nil _
  have plain : ∀ piece ∈ pieces now results, piece.Plain := plain_pieces
  have bare : '<' ∉ "?xml version=\"1.0\" encoding=\"UTF-8\"?".toList := by decide
  have bodies := bodies_eq plain bare (by decide)
  have tokens : tokensOf text.toList = readAll (pieces now results) := by
    have read := congrArg (List.filterMap readToken?) bodies
    rw [List.filterMap_map] at read
    rw [tokensOf, content, split, List.tail_cons]
    refine read.trans ?_
    rw [readAll, List.filterMap_cons_none rfl, List.filterMap_map]
    rfl
  rw [elementsOf, tokens, grows_report]
  rfl

/-! ## Numbers -/

theorem numeral?_toString (number : Nat) : numeral? (toString number) = some number := by
  have digits : (toString number).toList = Nat.toDigits 10 number := by simp
  have some : (toString number).isEmpty = false := by
    rw [Bool.eq_false_iff, ne_eq, String.isEmpty_iff, ← String.toList_eq_nil_iff, digits]
    exact Nat.toDigits_ne_nil
  have all : (Nat.toDigits 10 number).all Char.isDigit = true :=
    List.all_eq_true.2 fun _ member => Nat.isDigit_of_mem_toDigits (by decide) (by decide) member
  rw [numeral?, digits, some, all, Nat.ofDigitChars_toDigits (by decide) (by decide)]
  rfl

theorem sum?_map {α : Type} {items : List α} {node : α → Node} {key : String} {number : α → Nat}
    (each : ∀ item, (node item).tag.number? key = some (number item)) :
    sum? key (items.map node) = some (items.map number).sum := by
  have numbers : (items.map node).mapM (fun node => node.tag.number? key) =
      some (items.map number) := by
    induction items with
    | nil => rfl
    | cons item items ih => simp [each, ih]
  rw [sum?, numbers]
  rfl

theorem number_tests (feature : FeatureResult) :
    (suiteNode feature).tag.number? "tests" = some feature.scenarios.length :=
  numeral?_toString _

theorem number_failures (feature : FeatureResult) :
    (suiteNode feature).tag.number? "failures" = some (failures feature) :=
  numeral?_toString _

/-! ## Counts -/

theorem Node.allOf_eq (nodes : List Node) : allOf nodes = nodes.flatMap all := by
  induction nodes with
  | nil => rfl
  | cons node nodes ih => rw [allOf, ih, List.flatMap_cons]

theorem Node.named_mk (tag : Tag) (inside : List Node) (name : String) :
    (mk tag inside).named name =
      (if tag.name = name then [mk tag inside] else []) ++ inside.flatMap (·.named name) := by
  have own : (mk tag inside).tag.name = tag.name := rfl
  rw [named, all, allOf_eq, List.filter_cons, List.filter_flatMap, own]
  by_cases same : tag.name = name <;> simp [same, named]

/-- What is in an element of another name is in the elements within it. -/
theorem length_named {α : Type} {tag : Tag} {items : List α} {node : α → Node} {name : String}
    (other : tag.name ≠ name) : ((Node.mk tag (items.map node)).named name).length =
      (items.map fun item => ((node item).named name).length).sum := by
  rw [Node.named_mk, if_neg other, List.nil_append, List.flatMap_map, List.length_flatMap]

theorem sum_indicator {α : Type} (items : List α) (holds : α → Prop) [DecidablePred holds] :
    (items.map fun item => if holds item then 1 else 0).sum = (items.filter holds).length := by
  induction items with
  | nil => rfl
  | cons item items ih => by_cases here : holds item <;> simp [here, ih, Nat.add_comm]

section Cases

variable (feature : String) (scenario : ScenarioResult)

theorem named_testsuite : (caseNode feature scenario).named "testsuite" = [] := by
  rw [caseNode, Node.named_mk, standingNodes]
  cases scenario.status <;> simp [caseTag, Node.named_mk]

theorem length_testcase : ((caseNode feature scenario).named "testcase").length = 1 := by
  rw [caseNode, Node.named_mk, standingNodes]
  cases scenario.status <;> simp [caseTag, Node.named_mk]

theorem length_failure : ((caseNode feature scenario).named "failure").length =
    if scenario.status = .failed then 1 else 0 := by
  rw [caseNode, Node.named_mk, standingNodes]
  cases scenario.status <;> simp [caseTag, Node.named_mk]

theorem length_skipped : ((caseNode feature scenario).named "skipped").length =
    if scenario.status = .skipped then 1 else 0 := by
  rw [caseNode, Node.named_mk, standingNodes]
  cases scenario.status <;> simp [caseTag, Node.named_mk]

end Cases

section Suites

variable (feature : FeatureResult)

theorem suite_testsuite : (suiteNode feature).named "testsuite" = [suiteNode feature] := by
  rw [suiteNode, Node.named_mk, List.flatMap_map]
  simp [suiteTag, named_testsuite]

theorem suite_testcase : ((suiteNode feature).named "testcase").length = feature.scenarios.length := by
  rw [suiteNode, length_named (by simp [suiteTag])]
  simp [length_testcase]

theorem suite_failure : ((suiteNode feature).named "failure").length = failures feature := by
  rw [suiteNode, length_named (by simp [suiteTag])]
  simp only [length_failure, sum_indicator, failures]
  rfl

theorem suite_skipped : ((suiteNode feature).named "skipped").length =
    (feature.scenarios.filter (·.status == .skipped)).length := by
  rw [suiteNode, length_named (by simp [suiteTag])]
  simp only [length_skipped, sum_indicator]
  rfl

end Suites

section Root

variable (now : String) (results : Results)

theorem count_eq (status : ScenarioStatus) : results.count status =
    (results.features.map fun feature =>
      (feature.scenarios.filter (·.status == status)).length).sum := by
  rw [Results.count, List.filter_flatMap, List.length_flatMap]

theorem root_testsuite : (rootNode now results).named "testsuite" = results.features.map suiteNode := by
  rw [rootNode, Node.named_mk, List.flatMap_map]
  simp [rootTag, suite_testsuite, List.map_eq_flatMap]

theorem root_testcase : ((rootNode now results).named "testcase").length = results.total := by
  rw [rootNode, length_named (by simp [rootTag]), Results.total, List.length_flatMap]
  simp only [suite_testcase]

theorem root_failure : ((rootNode now results).named "failure").length = results.count .failed := by
  rw [rootNode, length_named (by simp [rootTag]), count_eq]
  simp only [suite_failure, failures]

theorem root_skipped : ((rootNode now results).named "skipped").length = results.count .skipped := by
  rw [rootNode, length_named (by simp [rootTag]), count_eq]
  simp only [suite_skipped]

theorem root_number : (rootNode now results).tag.number? "tests" = some results.total ∧
    (rootNode now results).tag.number? "failures" = some (results.count .failed) ∧
    (rootNode now results).tag.number? "skipped" = some (results.count .skipped) :=
  ⟨numeral?_toString _, numeral?_toString _, numeral?_toString _⟩

theorem root_addsUp : (rootNode now results).AddsUp := by
  obtain ⟨tests, failures, skipped⟩ := root_number now results
  have total : results.total = (results.features.map (·.scenarios.length)).sum := by
    rw [Results.total, List.length_flatMap]
  refine ⟨rfl, ?_, ?_, ?_, ?_, ?_, ?_⟩
  · rw [tests, root_testsuite, sum?_map number_tests, total]
  · rw [tests, root_testcase]
  · rw [failures, root_testsuite, sum?_map number_failures, count_eq]
    rfl
  · rw [failures, root_failure]
  · rw [skipped, root_skipped]
  · rw [root_testsuite, List.forall_mem_map]
    intro feature _
    exact ⟨(suite_testcase feature).symm ▸ number_tests feature,
      (suite_failure feature).symm ▸ number_failures feature⟩

end Root

/-- Whatever events a collector has been told of, in any order: in the report on its results, the
numbers of the whole are those of the results and of the elements that are there, and the sums of the
numbers of its suites, whose numbers are those of their own elements. -/
theorem totals_add_up {results : Results} {now : Moment} (clock : Moment) (directory : Path)
    (collected : results.Collected) (dated : now.Dated) :
    ∃ file root, generateReport clock directory (results.value now.text) "junit" = .ok file ∧
      elementsOf file.content = some [root] ∧ root.AddsUp ∧
      root.tag.number? "tests" = some results.total ∧
      root.tag.number? "failures" = some (results.count .failed) ∧
      root.tag.number? "skipped" = some (results.count .skipped) := by
  obtain ⟨file, generated, content⟩ := report_eq clock directory dated.stamp collected.timed
  exact ⟨file, rootNode now.text results, generated, elementsOf_report content,
    root_addsUp now.text results, root_number now.text results⟩

/-- Events out of order: a test before every suite that never ends, one that fails behind it, one that
is skipped when the suite is over, and an end without a beginning. -/
def strayEvents : List (CollectorEvent × List Value) :=
  let card (title : String) : Value := .test ⟨title, [], []⟩
  [(.testStarted, [card "alone"]), (.suiteBefore, [.suite ⟨"<testsuite tests=\"9\">", []⟩]),
    (.testStarted, [card "<failure/>"]), (.testFailed, [card "", .text "</testcase>"]),
    (.testStarted, [card "late"]), (.suiteAfter, [.null]), (.testSkipped, [card "late"]),
    (.testFinished, [card "late"]), (.testFinished, [card "late"]), (.testPassed, [card "late"])]

def strayResults : Results :=
  strayEvents.foldl (fun results told =>
    (results.collect (Moment.text ⟨0, none⟩) told.1 told.2).2) .initial

theorem strayResults_collected : strayResults.Collected := by
  have dated : Moment.Dated ⟨0, none⟩ := by decide +kernel
  have further {results : Results} (collected : results.Collected)
      (events : List (CollectorEvent × List Value)) : (events.foldl (fun results told =>
        (results.collect (Moment.text ⟨0, none⟩) told.1 told.2).2) results).Collected := by
    induction events generalizing results with
    | nil => exact collected
    | cons told events ih => exact ih (collected.collects dated told.1 told.2)
  exact further .initial strayEvents

theorem totals_add_up_stray :
    strayResults.Collected ∧ Moment.Dated ⟨0, none⟩ ∧ strayResults.count .running = 1 ∧
    ∃ file root, generateReport ⟨0, none⟩ ⟨"", []⟩ (strayResults.value (Moment.text ⟨0, none⟩)) "junit" =
        .ok file ∧
      elementsOf file.content = some [root] ∧ root.AddsUp ∧ root.tag.number? "tests" = some 3 ∧
      root.tag.number? "failures" = some 1 ∧ root.tag.number? "skipped" = some 1 := by
  have dated : Moment.Dated ⟨0, none⟩ := by decide +kernel
  obtain ⟨file, root, generated, read, adds, tests, failures, skipped⟩ :=
    totals_add_up ⟨0, none⟩ ⟨"", []⟩ strayResults_collected dated
  have counts : strayResults.total = 3 ∧ strayResults.count .failed = 1 ∧
      strayResults.count .skipped = 1 ∧ strayResults.count .running = 1 := by
    decide +kernel
  rw [counts.1] at tests
  rw [counts.2.1] at failures
  rw [counts.2.2.1] at skipped
  exact ⟨strayResults_collected, dated, counts.2.2.2, file, root, generated, read, adds, tests, failures,
    skipped⟩

end FeatureRunner.Junit
