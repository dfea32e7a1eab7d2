import FeatureRunner.Proofs.Command.Work
import FeatureRunner.Proofs.Suite.Layout

/-!
What `preview` shows of a feature file, and how far that agrees with what is compiled. The scenarios
of the feature itself are listed and their steps looked up as the compiler does; those of its rules
are neither listed nor looked up.
-/

namespace FeatureRunner

/-- The steps that a preview shows: those of the background and of the scenarios of the feature
itself, outlines included. -/
def Feature.shown (feature : Feature) : List FeatureStep :=
  feature.body.backgroundSteps ++ feature.body.scenarios.flatMap (·.steps)

namespace Command
open Work

/-! ## The lines -/

/-- The mark of a step: a check mark if some definition matches it and else a cross, where that is
checked. -/
def stepMark (check : Bool) (registry : Registry) (text : String) : String :=
  if check then if registry.Knows text then "✓ " else "✗ " else ""

theorem stepMark_of_find {registry : Registry} {text : String} {found : Option StepMatch}
    (searched : registry.find? text = .ok found) :
    stepMark true registry text = if found.isSome then "✓ " else "✗ " := by
  unfold stepMark
  cases found with
  | some found =>
    have knows : registry.Knows text := ⟨found, Registry.find?_eq_some.1 searched⟩
    simp [knows]
  | none =>
    have unknown : ¬ registry.Knows text := by
      rintro ⟨found, first⟩
      rw [Registry.find?_eq_some.2 first] at searched
      cases searched
    simp [unknown]

def stepLine (check : Bool) (registry : Registry) (step : FeatureStep) : String :=
  "    " ++ stepMark check registry step.text ++ step.keyword ++ " " ++ step.text

def scenarioLines (check : Bool) (registry : Registry) (scenario : Scenario) : List String :=
  ("\n  " ++ scenario.keyword ++ ": " ++ scenario.name) ::
    (if scenario.tags.isEmpty then []
      else ["    Tags: " ++ " ".intercalate (scenario.tags.map ("@" ++ ·))]) ++
    scenario.steps.map (stepLine check registry)

def backgroundLines (check : Bool) (registry : Registry) : Option (List FeatureStep) → List String
  | some steps => "\n  Background:" :: steps.map (stepLine check registry)
  | none => []

def previewLines (check : Bool) (registry : Registry) (feature : Feature) : List String :=
  ("Feature: " ++ feature.name) ::
    ((if feature.description.isEmpty then [] else ["  " ++ " ".intercalate feature.description]) ++
    (backgroundLines check registry feature.body.background ++
    (feature.body.scenarios.flatMap (scenarioLines check registry) ++
    ["\nTotal scenarios: " ++ toString feature.body.scenarios.length])))

/-! ## Printing them -/

/-- Some work over a registry prints lines and changes nothing else, if it comes to its end. -/
def Prints (registry : Registry) (work : Work Unit) (lines : List String) : Prop :=
  ∀ workspace after, workspace.registry = registry → work workspace = (.ok (), after) →
    after = { workspace with output := workspace.output ++ printed lines }

namespace Prints

variable {registry : Registry}

theorem nothing : Prints registry (pure ()) [] := by
  intro workspace after _ ended
  cases ended
  simp

theorem echo (line : String) : Prints registry (Work.echo line) [line] := by
  intro workspace after _ ended
  rw [echo_eq] at ended
  cases ended
  rfl

theorem append {work further : Work Unit} {lines more : List String}
    (first : Prints registry work lines) (second : Prints registry further more) :
    Prints registry (work >>= fun _ => further) (lines ++ more) := by
  intro workspace after known ended
  obtain ⟨⟨⟩, mid, begun, ended⟩ := bind_ok ended
  have here := first workspace mid known begun
  have there := second mid after (by rw [here]; exact known) ended
  rw [there, here]
  simp [String.append_assoc]

theorem echoStep (check : Bool) (step : FeatureStep) :
    Prints registry (Command.echoStep check step) [stepLine check registry step] := by
  intro workspace after known ended
  cases check with
  | false => exact echo _ workspace after known ended
  | true =>
    obtain ⟨_, _, ⟨⟩, ended⟩ := bind_ok ended
    obtain ⟨found, _, searched, ended⟩ := bind_ok ended
    obtain ⟨looked, rfl⟩ := ofExcept_ok searched
    rw [known] at looked
    unfold stepLine
    rw [stepMark_of_find looked]
    exact echo _ workspace after known ended

theorem echoSteps (check : Bool) (steps : List FeatureStep) :
    Prints registry (Command.echoSteps check steps) (steps.map (stepLine check registry)) := by
  induction steps with
  | nil => exact nothing
  | cons step rest ih => exact (echoStep check step).append ih

theorem echoScenarios (check : Bool) (scenarios : List Scenario) :
    Prints registry (Command.echoScenarios check scenarios)
      (scenarios.flatMap (scenarioLines check registry)) := by
  induction scenarios with
  | nil => exact nothing
  | cons scenario rest ih =>
    have steps := (echoSteps check scenario.steps).append ih
    unfold Command.echoScenarios
    rw [List.flatMap_cons]
    unfold scenarioLines
    cases scenario.tags.isEmpty with
    | true => exact (echo _).append steps
    | false => exact (echo _).append ((echo _).append steps)

theorem echoFeature (check : Bool) (feature : Feature) :
    Prints registry (Command.echoFeature check feature) (previewLines check registry feature) := by
  have total : Prints registry _ _ :=
    echo ("\nTotal scenarios: " ++ toString feature.body.scenarios.length)
  have scenarios := (echoScenarios check feature.body.scenarios).append total
  have described {rest : Work Unit} {lines : List String} (prints : Prints registry rest lines) :
      Prints registry (if !feature.description.isEmpty then do
          Work.echo ("  " ++ " ".intercalate feature.description)
          rest
        else rest)
        ((if feature.description.isEmpty then []
          else ["  " ++ " ".intercalate feature.description]) ++ lines) := by
    cases feature.description.isEmpty
    · exact (echo _).append prints
    · exact prints
  unfold Command.echoFeature previewLines backgroundLines
  refine (echo _).append ?_
  cases feature.body.background with
  | none => exact described scenarios
  | some steps => exact described ((echo _).append ((echoSteps check steps).append scenarios))

end Prints

/-! ## A preview that comes to its end -/

/-- A preview of the feature in a file, with what the step files at some paths define: those that the
configuration names and those that are given. -/
structure Previews (config : Config) (given : List String) (workspace : Workspace)
    (paths : List Value) (path text : String) (feature : Feature) (loaded : Workspace) : Prop where
  given : ∃ arguments configured, Arguments.read previewForm.options true given = .ok arguments ∧
    arguments.positional = [path] ∧
    (config.getD "steps.paths" (.list [])).items? = .ok configured ∧
    paths = configured ++ (arguments.values "--steps").map .text
  loads : ∃ count, loadSteps paths workspace = (.ok count, loaded)
  holds : loaded.tree.read? (.ofText path) = some text
  reads : Feature.read text (some path) = .ok (some feature)

section Ends

variable {workspace after : Workspace}

theorem Previews.unique {config : Config} {given : List String} {paths paths' : List Value}
    {path path' text text' : String} {feature feature' : Feature} {loaded loaded' : Workspace}
    (first : Previews config given workspace paths path text feature loaded)
    (second : Previews config given workspace paths' path' text' feature' loaded') :
    paths = paths' ∧ path = path' ∧ text = text' ∧ feature = feature' ∧ loaded = loaded' := by
  obtain ⟨⟨arguments, configured, read, alone, items, rfl⟩, ⟨_, loads⟩, holds, reads⟩ := first
  obtain ⟨⟨_, _, read', alone', items', rfl⟩, ⟨_, loads'⟩, holds', reads'⟩ := second
  cases read.symm.trans read'
  cases items.symm.trans items'
  cases alone.symm.trans alone'
  cases loads.symm.trans loads'
  cases holds.symm.trans holds'
  cases reads.symm.trans reads'
  exact ⟨rfl, rfl, rfl, rfl, rfl⟩

theorem readArguments_ok {form : CommandForm} {given : List String} {arguments : Arguments}
    (read : readArguments form given workspace = (.ok arguments, after)) :
    Arguments.read form.options true given = .ok arguments ∧ workspace = after := by
  unfold readArguments at read
  cases known : Arguments.read form.options true given with
  | error problem => rw [known] at read; cases read
  | ok found =>
    rw [known] at read
    cases read
    exact ⟨rfl, rfl⟩

theorem requirePath_ok {form : CommandForm} {argument path : String}
    (required : requirePaths form argument [path] workspace = (.ok (), after)) :
    workspace = after := by
  obtain ⟨tree, _, ⟨⟩, required⟩ := bind_ok required
  split at required <;> cases required
  rfl

theorem spread?_eq_ok {value : Value} {items : List Value} :
    spread? value = .ok items ↔ value.items? = .ok items := by
  unfold spread?
  cases value.items? <;> simp [Except.mapError]

theorem stepPaths_ok {config : Config} {arguments : Arguments} {paths : List Value}
    (found : stepPaths config arguments workspace = (.ok paths, after)) :
    workspace = after ∧ ∃ configured, (config.getD "steps.paths" (.list [])).items? = .ok configured ∧
      paths = configured ++ (arguments.values "--steps").map .text := by
  obtain ⟨configured, _, listed, ⟨⟩⟩ := bind_ok found
  obtain ⟨spread, rfl⟩ := ofExcept_ok listed
  exact ⟨rfl, configured, spread?_eq_ok.1 spread, rfl⟩

theorem loadSteps_nil (workspace : Workspace) : loadSteps [] workspace = (.ok 0, workspace) := by
  change (Except.ok (_ - _), workspace) = _
  rw [Nat.sub_self]

theorem loadStepsFor_ok {form : CommandForm} {paths : List Value}
    (loads : loadStepsFor form paths workspace = (.ok (), after)) :
    ∃ count, loadSteps paths workspace = (.ok count, after) := by
  obtain ⟨count, _, loads, ⟨⟩⟩ := bind_ok loads
  unfold rescue at loads
  split at loads
  · dsimp only at loads
    split at loads <;> cases loads
  · exact ⟨count, loads⟩

def showFile (check : Bool) (path : String) : Work Unit := do
  let text ← readText path
  match Feature.read text (some path) with
  | .error (.parse fault) =>
    echoError ("Error parsing feature file: " ++ Fault.message (.parse fault))
    stop (.leave 1)
  | .error fault => fail fault
  | .ok none =>
    echoError ("No feature found in " ++ path)
    stop (.leave 1)
  | .ok (some feature) => echoFeature check feature

theorem showFile_ok {check : Bool} {path : String}
    (shown : showFile check path workspace = (.ok (), after)) :
    ∃ text feature, workspace.tree.read? (.ofText path) = some text ∧
      Feature.read text (some path) = .ok (some feature) ∧ after = { workspace with
        output := workspace.output ++ printed (previewLines check workspace.registry feature) } := by
  unfold showFile at shown
  obtain ⟨text, _, found, shown⟩ := bind_ok shown
  obtain ⟨holds, rfl⟩ := readText_ok found
  cases reads : Feature.read text (some path) with
  | error fault =>
    rw [reads] at shown
    cases fault <;> cases shown
  | ok read =>
    rw [reads] at shown
    cases read with
    | none => cases shown
    | some feature =>
      exact ⟨text, feature, holds, reads, Prints.echoFeature check feature _ _ rfl shown⟩

/-- A preview that comes to its end has printed the lines on the feature in its file, and apart from
that it has only loaded step files. -/
theorem preview_ok {config : Config} {given : List String}
    (ended : preview config given workspace = (.ok (), after)) :
    ∃ paths path text feature loaded,
      Previews config given workspace paths path text feature loaded ∧
      after = { loaded with
        output := workspace.output ++ printed (previewLines (!paths.isEmpty) loaded.registry feature) } := by
  unfold preview at ended
  obtain ⟨arguments, _, begun, ended⟩ := bind_ok ended
  obtain ⟨read, rfl⟩ := readArguments_ok begun
  dsimp only at ended
  cases positional : arguments.positional with
  | nil => rw [positional] at ended; cases ended
  | cons path surplus =>
    rw [positional] at ended
    obtain ⟨_, _, required, ended⟩ := bind_ok ended
    cases requirePath_ok required
    cases surplus with
    | cons _ _ => cases ended
    | nil =>
      obtain ⟨paths, _, found, ended⟩ := bind_ok ended
      obtain ⟨rfl, configured, items, same⟩ := stepPaths_ok found
      have shows {loaded : Workspace} (loads : ∃ count, loadSteps paths workspace = (.ok count, loaded))
          (shown : showFile (!paths.isEmpty) path loaded = (.ok (), after)) :
          ∃ paths path text feature loaded,
            Previews config given workspace paths path text feature loaded ∧ after = { loaded with
              output := workspace.output ++
                printed (previewLines (!paths.isEmpty) loaded.registry feature) } := by
        obtain ⟨text, feature, holds, reads, same'⟩ := showFile_ok shown
        obtain ⟨count, loads⟩ := loads
        have kept : loaded.output = workspace.output := by
          have kept := (loadSteps_keeps paths workspace).2
          rwa [loads] at kept
        rw [kept] at same'
        exact ⟨paths, path, text, feature, loaded,
          ⟨⟨arguments, configured, read, positional, items, same⟩, ⟨count, loads⟩, holds, reads⟩, same'⟩
      -- Without paths nothing is loaded, and that is what loading no paths does.
      cases paths with
      | nil => exact shows ⟨0, loadSteps_nil workspace⟩ ended
      | cons first rest =>
        obtain ⟨_, loaded, loads, ended⟩ := bind_ok ended
        exact shows (loadStepsFor_ok loads) ended

end Ends

/-! ## What it says about the tests -/

def Uncrossed (check : Bool) (registry : Registry) (feature : Feature) : Prop :=
  ∀ step ∈ feature.shown, stepMark check registry step.text ≠ "✗ "

instance (check : Bool) (registry : Registry) (feature : Feature) :
    Decidable (Uncrossed check registry feature) :=
  inferInstanceAs (Decidable (∀ step ∈ feature.shown, stepMark check registry step.text ≠ "✗ "))

end Command

/-- A step that a test of a rule runs, and that stands in the rule: in its background or in a
scenario. -/
def Feature.InRule (feature : Feature) (step : FeatureStep) : Prop :=
  ∃ rule ∈ feature.rules, ∃ scenario ∈ rule.scenarios, scenario.isOutline = false ∧
    step ∈ rule.backgroundSteps ++ scenario.steps

section Tests

variable {registry : Registry} {feature : Feature} {scenario : Scenario} {step : FeatureStep}

theorem Scenario.mem_performed_behind {background : List FeatureStep}
    (performed : step ∈ (scenario.behind background).performed) :
    scenario.isOutline = false ∧ step ∈ background ++ scenario.steps := by
  change step ∈ if scenario.isOutline then [] else background ++ scenario.steps at performed
  cases outline : scenario.isOutline with
  | true => rw [outline] at performed; cases performed
  | false => rw [outline] at performed; exact ⟨rfl, performed⟩

theorem Feature.shown_of_ownPlan (own : scenario ∈ feature.ownPlan)
    (performed : step ∈ scenario.performed) : step ∈ feature.shown := by
  obtain ⟨scenario, listed, rfl⟩ := List.mem_map.1 own
  obtain ⟨-, inside⟩ := Scenario.mem_performed_behind performed
  rcases List.mem_append.1 inside with before | inside
  · exact List.mem_append_left _ before
  · exact List.mem_append_right _ (List.mem_flatMap.2 ⟨scenario, listed, inside⟩)

theorem Feature.shown_or_inRule (ruled : scenario ∈ feature.rulePlan)
    (performed : step ∈ scenario.performed) : step ∈ feature.shown ∨ feature.InRule step := by
  obtain ⟨rule, member, inside⟩ := List.mem_flatMap.1 ruled
  obtain ⟨scenario, listed, rfl⟩ := List.mem_map.1 inside
  obtain ⟨real, inside⟩ := Scenario.mem_performed_behind performed
  rw [List.append_assoc] at inside
  rcases List.mem_append.1 inside with before | inside
  · exact .inl (List.mem_append_left _ before)
  · exact .inr ⟨rule, member, scenario, listed, real, inside⟩

theorem Feature.shown_or_inRule_of_plan (planned : scenario ∈ feature.plan)
    (performed : step ∈ scenario.performed) : step ∈ feature.shown ∨ feature.InRule step := by
  rcases List.mem_append.1 planned with own | ruled
  · exact .inl (shown_of_ownPlan own performed)
  · exact shown_or_inRule ruled performed

/-- The scenarios of the feature itself are the first tests of what is compiled, and only for a step of
a rule may there be no suite. -/
structure Feature.ListsTests (registry : Registry) (text : String) (file : Option String)
    (feature : Feature) : Prop where
  fails : ∀ fault, Suite.compile registry text file = .error fault →
    ∃ step, feature.InRule step ∧ registry.resolve step.text = .error fault
  tests : ∀ suite, Suite.compile registry text file = .ok suite → ∃ own ruled,
    suite.tests = own ++ ruled ∧ own.length = feature.body.scenarios.length ∧
    List.Forall₂ (Test.Follows registry feature) feature.ownPlan own ∧
    List.Forall₂ (Test.Follows registry feature) feature.rulePlan ruled
  whole : feature.rules = [] → ∃ suite, Suite.compile registry text file = .ok suite ∧
    suite.tests.length = feature.body.scenarios.length ∧
    List.Forall₂ (Test.Follows registry feature) feature.ownPlan suite.tests

theorem Command.Uncrossed.knows (uncrossed : Uncrossed true registry feature)
    (shown : step ∈ feature.shown) : registry.Knows step.text := by
  by_contra unknown
  exact uncrossed step shown (by simp [stepMark, unknown])

theorem Feature.length_of_ownPlan {tests : List Test}
    (follow : List.Forall₂ (Test.Follows registry feature) feature.ownPlan tests) :
    tests.length = feature.body.scenarios.length := by
  rw [← follow.length_eq, ownPlan, List.length_map]

theorem Command.Uncrossed.listsTests {text : String} {file : Option String}
    (uncrossed : Uncrossed true registry feature)
    (reads : Feature.read text file = .ok (some feature)) :
    feature.ListsTests registry text file := by
  have fails (fault : Fault) (failed : Suite.compile registry text file = .error fault) :
      ∃ step, feature.InRule step ∧ registry.resolve step.text = .error fault := by
    obtain ⟨scenario, planned, step, performed, unresolved⟩ := Suite.compile_error reads failed
    -- What is shown has a definition, so that the step stands in a rule.
    rcases Feature.shown_or_inRule_of_plan planned performed with shown | inside
    · obtain ⟨found, first⟩ := uncrossed.knows shown
      rw [Registry.resolve_eq_ok.2 first] at unresolved
      cases unresolved
    · exact ⟨step, inside, unresolved⟩
  refine ⟨fails, fun suite compiled => ?_, fun bare => ?_⟩
  · have follow := ((Suite.compile_eq_ok reads).1 compiled).tests.flip
    have own := (List.forall₂_take_append _ feature.ownPlan feature.rulePlan follow).flip
    have ruled := (List.forall₂_drop_append _ feature.ownPlan feature.rulePlan follow).flip
    exact ⟨_, _, (List.take_append_drop _ _).symm, Feature.length_of_ownPlan own, own, ruled⟩
  · cases compiled : Suite.compile registry text file with
    | error fault =>
      obtain ⟨step, ⟨rule, member, -⟩, -⟩ := fails fault compiled
      rw [bare] at member
      cases member
    | ok suite =>
      have follow := ((Suite.compile_eq_ok reads).1 compiled).tests
      rw [Feature.plan, Feature.rulePlan, bare, List.flatMap_nil, List.append_nil] at follow
      exact ⟨suite, rfl, Feature.length_of_ownPlan follow, follow⟩

end Tests

namespace Command

/-- A preview that comes to its end lists the scenarios of the feature itself. If it looks up their
steps and marks none with a cross, they are the first tests that are compiled, and all of them if the
feature has no rules. What rules hold is not looked up, and may keep the feature from being compiled. -/
theorem preview_lists_own {config : Config} {given : List String} {workspace loaded after : Workspace}
    {paths : List Value} {path text : String} {feature : Feature}
    (previews : Previews config given workspace paths path text feature loaded)
    (ended : preview config given workspace = (.ok (), after)) :
    after = { loaded with
      output := workspace.output ++ printed (previewLines (!paths.isEmpty) loaded.registry feature) } ∧
    (paths ≠ [] → Uncrossed (!paths.isEmpty) loaded.registry feature →
      feature.ListsTests loaded.registry text (some path)) := by
  obtain ⟨_, _, _, _, _, found, same⟩ := preview_ok ended
  obtain ⟨rfl, rfl, rfl, rfl, rfl⟩ := previews.unique found
  refine ⟨same, fun checked uncrossed => ?_⟩
  rw [List.isEmpty_eq_false_iff.2 checked] at uncrossed
  exact uncrossed.listsTests previews.reads

/-- A workspace with a feature file of some rows and a step file that knows one step. -/
def wellWorkspace (rows : List String) : Workspace where
  world := .initial ⟨0, none⟩
  registry := ⟨[], .text "strict"⟩
  tree := ⟨⟨"/", []⟩, [(["f"], fileText rows), (["s.py"], "")]⟩
  home := ⟨"/", []⟩
  namedConfig := none
  stepFiles := [⟨["s.py"], [⟨"given", .text "rest",
    .script "idle" ⟨[], 0, true, []⟩ false false 0 [], ""⟩], [], none⟩]
  output := ""
  errors := ""
  written := []

def bareConfig : Config := ⟨⟨"", []⟩, []⟩

def plainRows : List String :=
  ["Feature: F", "Background:", "Given rest", "Scenario Outline: O", "Scenario: S",
    "When rest"]

theorem preview_lists_own_plain : ∃ feature loaded after,
    Previews bareConfig ["f", "-s", "s.py"] (wellWorkspace plainRows) [.text "s.py"] "f"
      (fileText plainRows) feature loaded ∧
    preview bareConfig ["f", "-s", "s.py"] (wellWorkspace plainRows) = (.ok (), after) ∧
    after.output = printed ["Feature: F", "\n  Background:", "    ✓ Given rest",
      "\n  Scenario Outline: O", "\n  Scenario: S", "    ✓ When rest",
      "\nTotal scenarios: 2"] ∧
    after.output = printed (previewLines true loaded.registry feature) ∧
    Uncrossed true loaded.registry feature ∧ feature.rules = [] ∧
    feature.ListsTests loaded.registry (fileText plainRows) (some "f") := by
  let loading := Work.loadSteps [.text "s.py"] (wellWorkspace plainRows)
  let ended := preview bareConfig ["f", "-s", "s.py"] (wellWorkspace plainRows)
  have well : ended.1.toOption = some () ∧ ended.2.output = printed ["Feature: F",
      "\n  Background:", "    ✓ Given rest", "\n  Scenario Outline: O", "\n  Scenario: S",
      "    ✓ When rest", "\nTotal scenarios: 2"] := by decide +kernel
  have read : (Feature.read (fileText plainRows) (some "f")).toOption.join.map (fun feature =>
      (decide (Uncrossed true loading.2.registry feature), feature.rules)) = some (true, []) := by
    rw [Feature.read_fileText]
    decide +kernel
  obtain ⟨feature, found, checked⟩ := Option.map_eq_some_iff.1 read
  obtain ⟨checked, bare⟩ := Prod.mk.inj checked
  have uncrossed : Uncrossed true loading.2.registry feature := of_decide_eq_true checked
  have parsed : (Arguments.read previewForm.options true ["f", "-s", "s.py"]).toOption.map
      (fun arguments => (arguments.options, arguments.positional)) =
        some ([("--steps", "s.py")], ["f"]) := by decide +kernel
  have items : (bareConfig.getD "steps.paths" (.list [])).items? = .ok [] := rfl
  obtain ⟨⟨_, _⟩, parsed, ⟨⟩⟩ := Option.map_eq_some_iff.1 parsed
  have previews : Previews bareConfig ["f", "-s", "s.py"] (wellWorkspace plainRows) [.text "s.py"]
      "f" (fileText plainRows) feature loading.2 :=
    { given := ⟨_, [], eq_ok_of_toOption parsed, rfl, items, rfl⟩
      loads := ⟨1, ok_of_toOption (by decide +kernel)⟩
      holds := by decide +kernel
      reads := eq_ok_of_toOption (Option.join_eq_some_iff.1 found) }
  obtain ⟨same, agrees⟩ := preview_lists_own previews (ok_of_toOption well.1)
  exact ⟨feature, loading.2, ended.2, previews, ok_of_toOption well.1, well.2,
    (congrArg Workspace.output same).trans (String.empty_append), uncrossed, bare,
    agrees (by simp) uncrossed⟩

def ruledRows : List String :=
  ["Feature: F", "Scenario: S", "Given rest", "Rule: R", "Scenario: T", "Given fly"]

/-- A preview that marks no step with a cross, of a feature that is not compiled: its rule is not
shown. -/
theorem rule_not_previewed : ∃ after,
    preview bareConfig ["f", "-s", "s.py"] (wellWorkspace ruledRows) = (.ok (), after) ∧
    after.output = printed ["Feature: F", "\n  Scenario: S", "    ✓ Given rest",
      "\nTotal scenarios: 1"] ∧
    Suite.compile after.registry (fileText ruledRows) (some "f") =
      .error (.noMatch "fly") := by
  let ended := preview bareConfig ["f", "-s", "s.py"] (wellWorkspace ruledRows)
  have well : ended.1.toOption = some () ∧ ended.2.output = printed ["Feature: F",
      "\n  Scenario: S", "    ✓ Given rest", "\nTotal scenarios: 1"] := by decide +kernel
  have refused : (match Suite.compile ended.2.registry (fileText ruledRows) (some "f") with
      | .error fault => some fault
      | .ok _ => none) = some (.noMatch "fly") := by decide +kernel
  refine ⟨ended.2, ok_of_toOption well.1, well.2, ?_⟩
  split at refused
  · rename_i fault failed
    exact failed.trans (congrArg Except.error (Option.some.inj refused))
  · cases refused

end Command

end FeatureRunner
