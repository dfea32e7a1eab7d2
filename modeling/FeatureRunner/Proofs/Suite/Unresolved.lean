import FeatureRunner.Proofs.Pattern.Substitution
import FeatureRunner.Proofs.Suite.Layout

/-!
How compiling a feature ends. It fails at the first step, in the order of the tests and of the steps
within a test, that has no definition, be it that none matches or that a number in it is too long.
-/

namespace FeatureRunner
open FeatureRunner.Text

/-! ## Texts without a definition -/

theorem PlaceholderPattern.coerceGroups_error {slots : List Placeholder}
    {texts : List (Option (List Char))} {fault : Fault}
    (failed : coerceGroups slots texts = .error fault) :
    ∃ count, digitBound < count ∧ fault = .digitLimit count := by
  induction slots generalizing texts with
  | nil => cases failed
  | cons slot slots ih =>
    cases texts with
    | nil => cases failed
    | cons text texts =>
      have further {value : Value}
          (others : (coerceGroups slots texts >>= fun values => .ok (value :: values)) = .error fault) :
          ∃ count, digitBound < count ∧ fault = .digitLimit count := by
        rcases bind_eq_error.1 others with others | ⟨values, -, none⟩
        · exact ih others
        · cases none
      unfold coerceGroups at failed
      cases text with
      | none => exact further failed
      | some held =>
        rcases bind_eq_error.1 failed with first | ⟨value, -, others⟩
        · obtain ⟨-, long, rfl⟩ := coerce_error first
          exact ⟨_, long, rfl⟩
        · exact further others

theorem StepPattern.match?_error {pattern : StepPattern} {text : String} {fault : Fault}
    (failed : pattern.match? text = .error fault) :
    ∃ count, digitBound < count ∧ fault = .digitLimit count := by
  cases pattern with
  | placeholders pattern =>
    change pattern.match? text = .error fault at failed
    unfold PlaceholderPattern.match? at failed
    split at failed
    · cases failed
    · dsimp only at failed
      rw [bind_eq_error] at failed
      rcases failed with failed | ⟨values, -, none⟩
      · exact PlaceholderPattern.coerceGroups_error failed
      · cases none
  | regex written expression groups =>
    unfold match? at failed
    dsimp only at failed
    split at failed <;> cases failed

namespace Registry

/-- A definition takes a number of so many digits from a text, more than can be read, and none of
those before it matches. -/
def Overflows (registry : Registry) (text : String) (count : Nat) : Prop :=
  digitBound < count ∧ ∃ earlier definition later,
    registry.definitions = earlier ++ definition :: later ∧
      (∀ other ∈ earlier, other.match? text = .ok none) ∧
        definition.match? text = .error (.digitLimit count)

theorem firstMatch_error {text : String} {index : Nat} {definitions : List StepDefinition}
    {fault : Fault} (failed : firstMatch text index definitions = .error fault) :
    ∃ earlier definition later, definitions = earlier ++ definition :: later ∧
      (∀ other ∈ earlier, other.match? text = .ok none) ∧ definition.match? text = .error fault := by
  induction definitions generalizing index with
  | nil => cases failed
  | cons definition rest ih =>
    rw [firstMatch_cons] at failed
    split at failed
    case h_1 => cases failed
    case h_2 missed =>
      obtain ⟨earlier, definition', later, rfl, misses, fails⟩ := ih failed
      exact ⟨definition :: earlier, definition', later, rfl, List.forall_mem_cons.2 ⟨missed, misses⟩, fails⟩
    case h_3 fails =>
      cases failed
      exact ⟨[], definition, rest, rfl, nofun, fails⟩

theorem resolve_error {registry : Registry} {text : String} {fault : Fault}
    (failed : registry.resolve text = .error fault) :
    registry.Misses text ∧ fault = .noMatch text ∨
      ∃ count, registry.Overflows text count ∧ fault = .digitLimit count := by
  rw [resolve_eq] at failed
  cases found : registry.find? text with
  | error other =>
    rw [found] at failed
    cases failed
    obtain ⟨earlier, definition, later, same, misses, fails⟩ := firstMatch_error found
    obtain ⟨count, long, rfl⟩ := StepPattern.match?_error fails
    exact .inr ⟨count, ⟨long, earlier, definition, later, same, misses, fails⟩, rfl⟩
  | ok answer =>
    rw [found] at failed
    cases answer with
    | none =>
      cases failed
      exact .inl ⟨find?_eq_none.1 found, rfl⟩
    | some match_ => cases failed

/-- Registered patterns take a number that is too long only from a text that holds one. -/
theorem Overflows.unbounded {registry : Registry} {text : String} {count : Nat}
    (overflows : registry.Overflows text count) (compiled : registry.Compiled) :
    ¬DigitsBounded text.toList := by
  intro bounded
  obtain ⟨-, earlier, definition, later, same, -, fails⟩ := overflows
  obtain ⟨written, whitespace, known⟩ := compiled definition (by rw [same]; simp)
  obtain ⟨params, matched⟩ := StepPattern.match?_ok known bounded
  cases matched.symm.trans fails

end Registry

/-! ## The first step without a definition -/

/-- The steps of the tests in their order. -/
def Feature.steps (feature : Feature) : List FeatureStep :=
  feature.plan.flatMap Scenario.performed

/-- A step without a definition, and every step before it has one. -/
def Feature.FirstUnknown (registry : Registry) (feature : Feature) (step : FeatureStep) : Prop :=
  ∃ earlier later, feature.steps = earlier ++ step :: later ∧
    (∀ other ∈ earlier, registry.Knows other.text) ∧ ¬registry.Knows step.text

theorem ResolvedStep.Performs.knows {registry : Registry} {step : FeatureStep}
    {resolved : ResolvedStep} (performs : Performs registry step resolved) :
    registry.Knows step.text := by
  obtain ⟨params, known, -⟩ := performs.bound
  exact ⟨_, known⟩

namespace Suite

variable {registry : Registry} {feature : Feature} {text : String} {file : Option String}

/-- The steps are resolved in the order of the tests, and then the suite is put together. -/
theorem compile_eq_error {fault : Fault} (read : Feature.read text file = .ok (some feature)) :
    compile registry text file = .error fault ↔
      feature.steps.mapM (ResolvedStep.resolve registry) = .error fault := by
  rw [compile_eq read, map_eq_error, Feature.steps]
  induction feature.plan with
  | nil => simp [Pure.pure, Except.pure]
  | cons scenario plan ih =>
    rw [mapM_cons_eq_error, ih, List.flatMap_cons, Test.ofScenario_eq, map_eq_error]
    simp [bind_eq_error, map_eq_ok, Pure.pure, Except.pure]

theorem knows_of_compile {suite : Suite} (read : Feature.read text file = .ok (some feature))
    (compiled : compile registry text file = .ok suite) :
    ∀ step ∈ feature.steps, registry.Knows step.text := by
  cases resolved : feature.steps.mapM (ResolvedStep.resolve registry) with
  | error fault => cases compiled.symm.trans ((compile_eq_error read).2 resolved)
  | ok steps =>
    have each := mapM_ok_iff.1 resolved
    clear resolved
    generalize feature.steps = list at each ⊢
    induction each with
    | nil => nofun
    | cons first _ ih =>
      exact List.forall_mem_cons.2 ⟨(ResolvedStep.resolve_eq_ok.1 first).knows, ih⟩

end Suite

/-- How compiling a text ends. -/
inductive Suite.Compiles (registry : Registry) (text : String) (file : Option String) :
    Except Fault Suite → Prop
  | unread {fault : Fault} (read : Feature.read text file = .error fault) :
      Compiles registry text file (.error fault)
  | empty (read : Feature.read text file = .ok none) :
      Compiles registry text file (.error (.noFeature (sourceName file)))
  | laid {feature : Feature} {suite : Suite} (read : Feature.read text file = .ok (some feature))
      (known : ∀ step ∈ feature.steps, registry.Knows step.text) (lays : suite.Lays registry feature) :
      Compiles registry text file (.ok suite)
  | missing {feature : Feature} {step : FeatureStep}
      (read : Feature.read text file = .ok (some feature))
      (first : feature.FirstUnknown registry step) (misses : registry.Misses step.text) :
      Compiles registry text file (.error (.noMatch step.text))
  | overlong {feature : Feature} {step : FeatureStep} {count : Nat}
      (read : Feature.read text file = .ok (some feature))
      (first : feature.FirstUnknown registry step) (overflows : registry.Overflows step.text count)
      (unbounded : registry.Compiled → ¬DigitsBounded step.text.toList) :
      Compiles registry text file (.error (.digitLimit count))

/-- Compiling a text fails as reading it does, or because it holds no feature, or at the first step
without a definition: because none matches, or because one takes a number from it that has more
digits than can be read. Otherwise it gives the suite of the feature. -/
theorem compile_ends (registry : Registry) (text : String) (file : Option String) :
    Suite.Compiles registry text file (Suite.compile registry text file) := by
  cases read : Feature.read text file with
  | error fault =>
    have failed : Suite.compile registry text file = .error fault := by
      unfold Suite.compile
      rw [read]
      rfl
    rw [failed]
    exact .unread read
  | ok found =>
    cases found with
    | none =>
      have failed : Suite.compile registry text file = .error (.noFeature (Suite.sourceName file)) := by
        unfold Suite.compile
        rw [read]
        rfl
      rw [failed]
      exact .empty read
    | some feature =>
      cases answer : Suite.compile registry text file with
      | ok suite =>
        exact .laid read (Suite.knows_of_compile read answer) ((Suite.compile_eq_ok read).1 answer)
      | error fault =>
        obtain ⟨earlier, step, later, same, resolved, failed⟩ :=
          mapM_eq_error.1 ((Suite.compile_eq_error read).1 answer)
        have unresolved := ResolvedStep.resolve_eq_error.1 failed
        have first : feature.FirstUnknown registry step := by
          refine ⟨earlier, later, same, fun other member => ?_, ?_⟩
          · obtain ⟨other', known⟩ := resolved other member
            exact (ResolvedStep.resolve_eq_ok.1 known).knows
          · rintro ⟨found, known⟩
            cases unresolved.symm.trans (Registry.resolve_eq_ok.2 known)
        rcases Registry.resolve_error unresolved with ⟨misses, rfl⟩ | ⟨count, overflows, rfl⟩
        · exact .missing read first misses
        · exact .overlong read first overflows overflows.unbounded

/-! ## A number that is too long -/

theorem lines_row {row : List Char} (whole : ∀ c ∈ row, isLineEnd c = false) (rest : List Char) :
    lines (row ++ '\n' :: rest) = row :: lines rest := by
  induction row with
  | nil => rfl
  | cons c row ih =>
    obtain ⟨inside, others⟩ := List.forall_mem_cons.1 whole
    have other : c ≠ '\r' := by
      rintro rfl
      exact absurd inside (by decide)
    rw [List.cons_append, lines.eq_3 c _ (fun _ same _ => other same), ih others, inside]
    rfl

theorem strip_solid {text : List Char} (solid : Solid text) (solid' : Solid text.reverse) :
    strip text = text := by
  have dropped {text : List Char} (solid : Solid text) : text.dropWhile isBlank = text := by
    cases text with
    | nil => rfl
    | cons c text => rw [List.dropWhile_cons, solid c rfl, if_neg Bool.false_ne_true]
  unfold strip stripRight stripLeft
  rw [dropped solid, dropped solid', List.reverse_reverse]

theorem FeatureReader.readLine_given {reader : FeatureReader} (ready : reader.state = .scenario)
    {text : List Char} (solid : Solid text) (solid' : Solid text.reverse) (some : text ≠ [])
    (file : Option String) (number : Nat) :
    reader.readLine file number ("Given ".toList ++ text) =
      .ok { ({ reader with hasStep := false }).addStep ⟨"Given", String.ofList text, none, none⟩ with
        state := .steps, hasStep := true } := by
  have end_solid : Solid ("Given ".toList ++ text).reverse := by
    rw [List.reverse_append]
    cases reversed : text.reverse with
    | nil => exact absurd (List.reverse_eq_nil_iff.1 reversed) some
    | cons c rest =>
      rw [reversed] at solid'
      exact solid'
  have start_solid : Solid ("Given ".toList ++ text) := by
    rintro _ ⟨⟩
    decide
  have stripped : strip ("Given ".toList ++ text) = "Given ".toList ++ text :=
    strip_solid start_solid end_solid
  have step : Line.step? ("Given ".toList ++ text) = Option.some ("Given", String.ofList text) := by
    have given : Line.step? ("Given ".toList ++ text) =
      Option.some ("Given", String.ofList (strip text)) := rfl
    rw [given, strip_solid solid solid']
  have read : ({ reader with hasStep := false }).readBlock ⟨file, number, "Given ".toList ++ text⟩ =
      .ok { ({ reader with hasStep := false }).addStep ⟨"Given", String.ofList text, none, none⟩ with
        state := .steps, hasStep := true } := by
    unfold readBlock FeatureReader.step?
    dsimp only
    rw [step]
    rfl
  unfold readLine
  rw [ready, stripped]
  exact read

theorem FeatureReader.readLines_cons {reader next : FeatureReader} {file : Option String}
    {number : Nat} {raw : List Char} (read : reader.readLine file number raw = .ok next)
    (rest : List (List Char)) :
    reader.readLines file number (raw :: rest) = next.readLines file (number + 1) rest := by
  rw [readLines, read]
  rfl

/-- The rows of a feature with one step, whose text is a number of so many digits. -/
def numeralRows (count : Nat) : List String :=
  ["Feature: F", "Scenario: S", String.ofList ("Given ".toList ++ List.replicate count '1')]

theorem lines_numeralRows (count : Nat) :
    lines ((numeralRows count).flatMap fun row => row.toList ++ ['\n']) =
      ["Feature: F".toList, "Scenario: S".toList, "Given ".toList ++ List.replicate count '1'] := by
  have given : ∀ c ∈ "Given ".toList, isLineEnd c = false :=
    forall_false_of_all (by decide)
  have digits : ∀ c ∈ List.replicate count '1', isLineEnd c = false := by
    intro c member
    rw [List.eq_of_mem_replicate member]
    decide
  have inside := List.forall_mem_append.2 ⟨given, digits⟩
  have first : ∀ c ∈ "Feature: F".toList, isLineEnd c = false :=
    forall_false_of_all (by decide)
  have second : ∀ c ∈ "Scenario: S".toList, isLineEnd c = false :=
    forall_false_of_all (by decide)
  unfold numeralRows
  simp only [List.flatMap_cons, List.flatMap_nil, List.append_assoc, String.toList_ofList,
    List.singleton_append, List.append_nil]
  rw [lines_row first, lines_row second, ← List.append_assoc, lines_row inside]
  rfl

theorem read_numeral (count : Nat) : ∃ feature,
    Feature.read (fileText (numeralRows (count + 1))) none = .ok (some feature) ∧
      feature.steps = [⟨"Given", String.ofList (List.replicate (count + 1) '1'), none, none⟩] := by
  let reader := (FeatureReader.initial.beginFeature "F").beginScenario .scenario "Scenario" "S"
  have solid : Solid (List.replicate (count + 1) '1') := by
    intro c first
    rw [List.eq_of_mem_replicate (List.mem_of_head? first)]
    decide
  have solid' : Solid (List.replicate (count + 1) '1').reverse := by
    rw [List.reverse_replicate]
    exact solid
  have feature_line : FeatureReader.initial.readLine none 1 "Feature: F".toList =
    .ok (FeatureReader.initial.beginFeature "F") := rfl
  have scenario_line : (FeatureReader.initial.beginFeature "F").readLine none 2 "Scenario: S".toList =
    .ok reader := rfl
  have ready : reader.state = .scenario := rfl
  have given_line := FeatureReader.readLine_given ready solid solid' nofun none 3
  rw [Feature.read_fileText, lines_numeralRows, FeatureReader.readLines_cons feature_line,
    FeatureReader.readLines_cons scenario_line, FeatureReader.readLines_cons given_line]
  exact ⟨_, rfl, rfl⟩

/-- A definition for whole numbers alone. -/
def numeralDefinition : StepDefinition :=
  ⟨lower "given", .placeholders ⟨"\x7bint\x7d", .tolerant, PatternPart.interleave [] [(⟨.int, false⟩, [])]⟩,
    .script "count" ⟨[], 0, true, []⟩ false false 0 [], ""⟩

theorem numeralDefinition_registered : Registry.initial.add "given" (.text "\x7bint\x7d")
    numeralDefinition.callable "" = .ok { Registry.initial with definitions := [numeralDefinition] } := by
  have compiled : StepPattern.compile (.text "\x7bint\x7d") Registry.initial.whitespace =
    .ok numeralDefinition.pattern := rfl
  unfold Registry.add
  rw [compiled]
  rfl

theorem numeralDefinition_overflows {digits : List Char} (has : OneOrMore isDecimalDigit digits)
    (long : digitBound < digits.length) :
    numeralDefinition.match? (String.ofList digits) = .error (.digitLimit digits.length) := by
  let slots : List (Placeholder × List Char) := [(⟨.int, false⟩, [])]
  let pattern : PlaceholderPattern := ⟨"\x7bint\x7d", .tolerant, PatternPart.interleave [] slots⟩
  have parts : pattern.parts = PatternPart.interleave [] slots := rfl
  have takings : List.Forall₂ (fun slot held => slot.1.kind.Takes held) slots [digits] :=
    .cons ⟨[], digits, .none, has, rfl⟩ .nil
  have spaced : Spaced slots := by simp [Spaced, slots]
  have whole : filled [] slots [digits] = (String.ofList digits).toList := by
    simp [filled, slots, Placeholder.mark]
  change pattern.match? (String.ofList digits) = _
  rcases PlaceholderPattern.match?_interleave parts (String.ofList digits) with
    ⟨-, unsplit⟩ | ⟨helds, longest, matched⟩
  · exact absurd (whole ▸ Splits.of_filled takings) (unsplit [digits])
  · obtain rfl := (whole ▸ longest.1).unique_of_spaced takings spaced
    have read := PlaceholderPattern.coerce_int .none has
    rw [if_pos long, List.nil_append] at read
    rw [matched]
    change (do return some (← (do return [← PlaceholderPattern.coerce .int digits]))) = _
    rw [read]
    rfl

theorem numeral_uncompiled {count : Nat} (long : digitBound < count + 1) : ∃ registry feature,
    Registry.initial.add "given" (.text "\x7bint\x7d") numeralDefinition.callable "" = .ok registry ∧
    Feature.read (fileText (numeralRows (count + 1))) none = .ok (some feature) ∧
    Suite.compile registry (fileText (numeralRows (count + 1))) none =
      .error (.digitLimit (count + 1)) := by
  obtain ⟨feature, read, steps⟩ := read_numeral count
  refine ⟨_, feature, numeralDefinition_registered, read, (Suite.compile_eq_error read).2 ?_⟩
  have digits : OneOrMore isDecimalDigit (List.replicate (count + 1) '1') := by
    refine ⟨nofun, fun c member => ?_⟩
    rw [List.eq_of_mem_replicate member]
    decide
  have length : (List.replicate (count + 1) '1').length = count + 1 := List.length_replicate
  have overflows := numeralDefinition_overflows digits (length.symm ▸ long)
  rw [length] at overflows
  rw [steps, mapM_cons_eq_error, ResolvedStep.resolve_eq_error, Registry.resolve_eq, Registry.find?,
    Registry.firstMatch_cons, overflows]
  exact .inl rfl

/-- A step that the only definition is for, and a feature that is not compiled because of its number:
the fault is neither the reader's nor that the text holds no feature or that no definition matches. -/
theorem overlong_number_escapes : ∃ registry feature,
    Registry.initial.add "given" (.text "\x7bint\x7d") numeralDefinition.callable "" = .ok registry ∧
    Feature.read (fileText (numeralRows 4301)) none = .ok (some feature) ∧
    Suite.compile registry (fileText (numeralRows 4301)) none = .error (.digitLimit 4301) :=
  numeral_uncompiled (by decide)

end FeatureRunner
