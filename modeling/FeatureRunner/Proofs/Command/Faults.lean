import FeatureRunner.Proofs.Command.Uncompiled

/-!
What becomes of the faults of this library's own kinds on the command line. Reading the configuration
and `run` report them and exit; `list-steps` and `preview` have no handler around loading step files,
and that is the one place that such a fault escapes from.

Main statement: `framework_faults`.
-/

namespace FeatureRunner
open FeatureRunner.Text

/-! ## Computations without such faults -/

/-- If a computation raises a fault, that is not of this library's own kinds. -/
def Foreign {α : Type} (answer : Except Fault α) : Prop :=
  ∀ fault, answer = .error fault → fault.kind.isFramework = false

namespace Foreign

variable {α β : Type}

theorem ok (value : α) : Foreign (.ok value) := by
  rintro _ ⟨⟩

theorem error {fault : Fault} (foreign : fault.kind.isFramework = false) :
    Foreign (.error fault : Except Fault α) := by
  rintro _ ⟨⟩
  exact foreign

theorem bind {answer : Except Fault α} {further : α → Except Fault β} (first : Foreign answer)
    (second : ∀ value, Foreign (further value)) : Foreign (answer >>= further) := by
  cases answer with
  | ok value => exact second value
  | error fault => exact error (first fault rfl)

theorem getD {found : Option (Except Fault α)} {default : Except Fault α}
    (first : ∀ answer, found = some answer → Foreign answer) (second : Foreign default) :
    Foreign (found.getD default) := by
  cases found with
  | none => exact second
  | some answer => exact first answer rfl

end Foreign

theorem Value.items?_foreign (value : Value) : Foreign value.items? := by
  cases value <;> first | exact .ok _ | exact .error rfl

theorem Value.getOr_foreign (value : Value) (key : String) (default : Value) :
    Foreign (value.getOr key default) := by
  refine .bind ?_ fun _ => .ok _
  cases value <;> first | exact .ok _ | exact .error rfl

/-! ### Reading a feature -/

namespace FeatureReader

variable {place : Place} {reader : FeatureReader}

theorem readTags_foreign (next : ReaderState) : Foreign (reader.readTags place next) := by
  unfold readTags
  split
  · exact .ok _
  · exact .error rfl

theorem unexpected_foreign : Foreign (reader.unexpected place) :=
  .error rfl

theorem taggable?_foreign {answer : Except Fault FeatureReader}
    (read : reader.taggable? place = some answer) : Foreign answer := by
  have examples : Foreign (reader.beginExamples place) := by
    unfold beginExamples
    split
    · exact .ok _
    · exact .error rfl
  unfold taggable? at read
  split at read
  · cases read
    exact readTags_foreign _
  · split at read
    · cases read
      exact .ok _
    · split at read
      · cases read
        exact .ok _
      · cases read
        exact .ok _
      · split at read <;> cases read
        exact examples

theorem step?_foreign {answer : Except Fault FeatureReader} (read : reader.step? place = some answer) :
    Foreign answer := by
  obtain ⟨⟨keyword, text⟩, -, rfl⟩ := Option.map_eq_some_iff.1 read
  dsimp only
  split
  · exact .error rfl
  · exact .ok _

theorem readInitial_foreign : Foreign (reader.readInitial place) := by
  unfold readInitial
  split
  · exact readTags_foreign _
  · split
    · exact .ok _
    · exact unexpected_foreign

theorem readHead_foreign (describe : Feature → Feature) :
    Foreign (reader.readHead place describe) := by
  unfold readHead
  split
  · rename_i read
    exact taggable?_foreign read
  · split <;> exact .ok _

theorem readBlock_foreign : Foreign (reader.readBlock place) := by
  unfold readBlock
  dsimp only
  split
  · rename_i read
    exact step?_foreign read
  · exact .getD (fun _ read => taggable?_foreign read) (.ok _)

theorem readRow_foreign (rows : List (List String)) (ofExamples : Bool) :
    Foreign (reader.readRow place rows ofExamples) := by
  unfold readRow
  dsimp only
  split
  · split
    · exact .ok _
    · exact .error rfl
  · exact .ok _

theorem readSteps_foreign (indentation : Nat) : Foreign (reader.readSteps place indentation) := by
  unfold readSteps
  split
  · split
    · exact .error rfl
    · exact .ok _
  · split
    · rename_i read
      exact step?_foreign read
    · split
      · rename_i read
        exact taggable?_foreign read
      · split
        · split
          · exact .error rfl
          · exact readRow_foreign _ _
        · exact unexpected_foreign

theorem readDocString_foreign (raw quotes : List Char) (indentation : Nat) (lines : List (List Char)) :
    Foreign (reader.readDocString place raw quotes indentation lines) := by
  unfold readDocString
  split
  · exact .ok _
  · dsimp only
    split
    · exact .error rfl
    · exact .ok _

theorem readComment_foreign (text : List Char) : Foreign (reader.readComment text) := by
  unfold readComment
  split
  · split
    · exact .ok _
    · exact .error rfl
  · exact .ok _

theorem readLine_foreign (file : Option String) (number : Nat) (raw : List Char) :
    Foreign (reader.readLine file number raw) := by
  unfold readLine
  dsimp only
  split
  · exact readDocString_foreign _ _ _ _
  · split
    · exact .ok _
    · split
      · exact readComment_foreign _
      · split
        · exact readInitial_foreign
        · exact readHead_foreign _
        · exact readHead_foreign _
        · exact .getD (fun _ read => taggable?_foreign read) unexpected_foreign
        · exact readBlock_foreign
        · exact readBlock_foreign
        · exact readSteps_foreign _
        · split
          · exact readRow_foreign _ _
          · exact readSteps_foreign _
        · exact .ok _

theorem readLines_foreign (file : Option String) (number : Nat) (lines : List (List Char)) :
    Foreign (reader.readLines file number lines) := by
  induction lines generalizing number reader with
  | nil => exact .ok _
  | cons raw rest ih => exact .bind (readLine_foreign _ _ _) fun _ => ih _

end FeatureReader

/-- A text that is no feature is a fault of parsing, or of the language that it names. -/
theorem Feature.read_foreign (text : String) (file : Option String) : Foreign (Feature.read text file) :=
  .bind (FeatureReader.readLines_foreign _ _ _) fun _ => .ok _

/-! ### Looking for a definition -/

theorem PlaceholderPattern.coerce_foreign (kind : PlaceholderKind) (text : List Char) :
    Foreign (coerce kind text) := by
  unfold coerce
  split
  · exact .ok _
  · split
    · exact .error rfl
    · exact .ok _
  · exact .ok _

theorem PlaceholderPattern.coerceGroups_foreign (slots : List Placeholder)
    (texts : List (Option (List Char))) : Foreign (coerceGroups slots texts) := by
  induction slots generalizing texts with
  | nil => exact .ok _
  | cons slot slots ih =>
    have rest (texts : List (Option (List Char))) (value : Value) :
        Foreign (do return value :: (← coerceGroups slots texts)) :=
      .bind (ih texts) fun _ => .ok _
    match texts with
    | [] => exact .ok _
    | none :: texts => exact rest texts .null
    | some text :: texts => exact .bind (coerce_foreign _ _) (rest texts)

theorem StepPattern.match?_foreign (pattern : StepPattern) (text : String) :
    Foreign (pattern.match? text) := by
  unfold StepPattern.match?
  split
  · unfold PlaceholderPattern.match?
    split
    · exact .ok _
    · exact .bind (PlaceholderPattern.coerceGroups_foreign _ _) fun _ => .ok _
  · split <;> exact .ok _

theorem Registry.find?_foreign (registry : Registry) (text : String) : Foreign (registry.find? text) := by
  have first (index : Nat) (definitions : List StepDefinition) :
      Foreign (firstMatch text index definitions) := by
    induction definitions generalizing index with
    | nil => exact .ok _
    | cons definition rest ih =>
      refine .bind (StepPattern.match?_foreign _ _) fun found => ?_
      cases found with
      | none => exact ih _
      | some params => exact .ok _
  exact first 0 _

namespace Command
open Work

/-! ## What escapes -/

/-- A fault escapes from some work, which leaves a workspace behind. -/
def Escapes {α : Type} (work : Work α) (workspace : Workspace) (fault : Fault) (after : Workspace) :
    Prop :=
  work workspace = (.error (.escape (.fault fault)), after)

/-- No fault of this library's own kinds escapes from some work. -/
def Contained {α : Type} (work : Work α) : Prop :=
  ∀ workspace fault after, Escapes work workspace fault after → fault.kind.isFramework = false

section Escapes

variable {α β : Type} {work : Work α} {further : α → Work β} {workspace after : Workspace}
  {fault : Fault}

theorem escapes_bind : Escapes (work >>= further) workspace fault after ↔
    Escapes work workspace fault after ∨
      ∃ value mid, work workspace = (.ok value, mid) ∧ Escapes (further value) mid fault after := by
  unfold Escapes
  rw [bind_eq]
  cases work workspace with
  | mk result mid => cases result <;> simp

theorem escapes_rescue {handler : Fault → Work α} :
    Escapes (work.rescue handler) workspace fault after ↔
      ∃ raised mid, Escapes work workspace raised mid ∧ Escapes (handler raised) mid fault after := by
  unfold Escapes rescue
  cases work workspace with
  | mk result mid => rcases result with (_ | _ | _) | _ <;> simp

end Escapes

namespace Contained

variable {α β : Type} {work : Work α} {further : α → Work β} {workspace after : Workspace}
  {fault : Fault}

theorem pure (value : α) : Contained (Pure.pure value : Work α) := by
  rintro _ _ _ ⟨⟩

theorem leave (code : Nat) : Contained (Work.stop (.leave code) : Work α) := by
  rintro _ _ _ ⟨⟩

theorem fail (foreign : fault.kind.isFramework = false) : Contained (Work.fail fault : Work α) := by
  rintro _ _ _ ⟨⟩
  exact foreign

theorem get : Contained Work.get := by
  rintro _ _ _ ⟨⟩

theorem update (change : Workspace → Workspace) : Contained (Work.update change) := by
  rintro _ _ _ ⟨⟩

theorem registry : Contained Work.registry := by
  rintro _ _ _ ⟨⟩

theorem tree : Contained Work.tree := by
  rintro _ _ _ ⟨⟩

theorem ofExcept {answer : Except Fault α} (foreign : Foreign answer) :
    Contained (Work.ofExcept answer) := by
  cases answer with
  | ok value => exact pure value
  | error fault => exact fail (foreign fault rfl)

theorem bind (first : Contained work) (second : ∀ value, Contained (further value)) :
    Contained (work >>= further) := by
  intro workspace fault after escapes
  rcases escapes_bind.1 escapes with here | ⟨value, mid, _, there⟩
  · exact first _ _ _ here
  · exact second value _ _ _ there

theorem ite {other : Work α} {condition : Prop} [Decidable condition] (first : Contained work)
    (second : Contained other) : Contained (if condition then work else other) := by
  split
  · exact first
  · exact second

theorem rescue {handler : Fault → Work α} (contained : ∀ fault, Contained (handler fault)) :
    Contained (work.rescue handler) := by
  intro workspace fault after escapes
  obtain ⟨raised, mid, _, there⟩ := escapes_rescue.1 escapes
  exact contained raised _ _ _ there

theorem finishing (contained : Contained work) (change : Workspace → Workspace) :
    Contained (work.finishing change) := by
  intro workspace fault after escapes
  have ended : (work workspace).1 = .error (.escape (.fault fault)) := congrArg Prod.fst escapes
  exact contained workspace fault _ (Prod.ext ended rfl)

theorem refuse (form : CommandForm) (problem : UsageProblem) :
    Contained (Command.refuse form problem : Work α) :=
  .bind (update _) fun _ => leave _

theorem abort (message : String) : Contained (Work.abort message : Work α) :=
  .bind (update _) fun _ => leave _

theorem ofUsage (form : CommandForm) (answer : Except UsageProblem α) :
    Contained (Command.ofUsage form answer) := by
  cases answer with
  | ok value => exact pure value
  | error problem => exact refuse form problem

/-- What escapes behind work that lets nothing escape. -/
theorem escapes_behind (contained : Contained work) (framework : fault.kind.isFramework = true) :
    Escapes (work >>= further) workspace fault after ↔
      ∃ value mid, work workspace = (.ok value, mid) ∧ Escapes (further value) mid fault after := by
  rw [escapes_bind, or_iff_right]
  intro here
  rw [contained _ _ _ here] at framework
  cases framework

/-- What escapes before work that lets nothing escape. -/
theorem escapes_before (contained : ∀ value, Contained (further value))
    (framework : fault.kind.isFramework = true) :
    Escapes (work >>= further) workspace fault after ↔ Escapes work workspace fault after := by
  rw [escapes_bind, or_iff_left]
  rintro ⟨value, mid, _, there⟩
  rw [contained value _ _ _ there] at framework
  cases framework

end Contained

/-! ## The parts of a command -/

theorem requirePaths_contained (form : CommandForm) (argument : String) (paths : List String) :
    Contained (requirePaths form argument paths) := by
  induction paths with
  | nil => exact .pure ()
  | cons path rest ih => exact .bind .tree fun tree => .ite ih (.refuse _ _)

theorem spread?_foreign (value : Value) : Foreign (spread? value) := by
  unfold spread?
  cases value.items? with
  | ok items => exact .ok items
  | error raised => exact .error rfl

theorem stepPaths_contained (config : Config) (arguments : Arguments) :
    Contained (stepPaths config arguments) :=
  .bind (.ofExcept (spread?_foreign _)) fun _ => .pure _

theorem readArguments_contained (form : CommandForm) (given : List String) :
    Contained (readArguments form given) :=
  .ofUsage _ _

theorem echoAll_contained (lines : List String) : Contained (echoAll lines) := by
  induction lines with
  | nil => exact .pure ()
  | cons line rest ih => exact .bind (.update _) fun _ => ih

theorem echoSteps_contained (check : Bool) (steps : List FeatureStep) :
    Contained (echoSteps check steps) := by
  induction steps with
  | nil => exact .pure ()
  | cons step rest ih =>
    refine .bind ?_ fun _ => ih
    unfold echoStep
    cases check with
    | false => exact .update _
    | true =>
      exact .bind .registry fun _ => .bind (.ofExcept (Registry.find?_foreign _ _)) fun _ =>
        .update _

theorem echoScenarios_contained (check : Bool) (scenarios : List Scenario) :
    Contained (echoScenarios check scenarios) := by
  induction scenarios with
  | nil => exact .pure ()
  | cons scenario rest ih =>
    have steps := Contained.bind (echoSteps_contained check scenario.steps) fun _ => ih
    unfold echoScenarios
    exact .bind (.update _) fun _ => .ite (.bind (.update _) fun _ => steps) steps

theorem echoFeature_contained (check : Bool) (feature : Feature) :
    Contained (echoFeature check feature) := by
  have scenarios := Contained.bind (echoScenarios_contained check feature.body.scenarios) fun _ =>
    .update fun workspace => { workspace with output := workspace.output ++
      ("\nTotal scenarios: " ++ toString feature.body.scenarios.length) ++ "\n" }
  unfold echoFeature
  cases feature.body.background with
  | none =>
    refine .bind (.update _) fun _ => .ite (.bind (.update _) fun _ => ?_) ?_ <;> exact scenarios
  | some steps =>
    refine .bind (.update _) fun _ => .ite (.bind (.update _) fun _ => ?_) ?_ <;>
      exact .bind (.update _) fun _ => .bind (echoSteps_contained _ _) fun _ => scenarios

theorem showFile_contained (check : Bool) (path : String) : Contained (showFile check path) := by
  refine .bind (.bind .tree fun tree => ?_) fun text => ?_
  · dsimp only
    split
    · exact .pure _
    · exact .fail rfl
  · split
    · exact .bind (.update _) fun _ => .leave _
    · rename_i fault _ failed
      exact .fail (Feature.read_foreign _ _ fault failed)
    · exact .bind (.update _) fun _ => .leave _
    · exact echoFeature_contained _ _

theorem readRun_contained (config : Config) (given : List String) : Contained (readRun config given) := by
  have formats (report : Value) (arguments : Arguments) :
      Contained (reportFormats report arguments) := by
    unfold reportFormats
    exact .ite (.bind (.ofExcept (Value.getOr_foreign _ _ _)) fun _ =>
      .ofExcept (Value.items?_foreign _)) (.pure _)
  have directory (report : Value) (arguments : Arguments) :
      Contained (reportDirectory report arguments) := by
    unfold reportDirectory
    refine .ite (.pure _) (.bind (.ofExcept (Value.getOr_foreign _ _ _)) fun _ => ?_)
    split
    · exact .pure _
    · exact .fail rfl
  have rest (arguments : Arguments) : Contained (do
      requirePaths runForm "FEATURE_FILES..." arguments.positional
      let formats ← reportFormats (config.part "report") arguments
      let directory ← reportDirectory (config.part "report") arguments
      return (arguments, formats, directory) : Work _) :=
    .bind (requirePaths_contained _ _ _) fun _ => .bind (formats _ _) fun _ =>
      .bind (directory _ _) fun _ => .pure _
  refine .bind (readArguments_contained _ _) fun arguments => ?_
  dsimp only
  split
  · exact .bind (.refuse _ _) fun _ =>
      .ite (.bind (.refuse _ _) fun _ => rest arguments) (rest arguments)
  · exact .ite (.bind (.refuse _ _) fun _ => rest arguments) (rest arguments)

/-! ## The commands -/

/-- The step files at some paths are what a command loads: `list-steps` right after reading its
arguments, `preview` before it reads the feature. -/
inductive Loads (config : Config) (given : List String) (workspace : Workspace) (name : String)
    (paths : List Value) : Prop
  | listing {arguments : Arguments} (called : name = "list-steps")
      (reads : Arguments.read listForm.options true given = .ok arguments)
      (alone : arguments.positional = [])
      (named : stepPaths config arguments workspace = (.ok paths, workspace))
  | previewing {arguments : Arguments} {path : String} (called : name = "preview")
      (reads : Arguments.read previewForm.options true given = .ok arguments)
      (one : arguments.positional = [path])
      (found : requirePaths previewForm "FEATURE_FILE" [path] workspace = (.ok (), workspace))
      (named : stepPaths config arguments workspace = (.ok paths, workspace))

section Commands

variable {config : Config} {given : List String} {workspace after : Workspace} {fault : Fault}

theorem ofUsage_ok {α : Type} {form : CommandForm} {answer : Except UsageProblem α} {value : α} :
    ofUsage form answer workspace = (.ok value, after) ↔ answer = .ok value ∧ workspace = after := by
  cases answer with
  | error problem =>
    refine iff_of_false (fun refused => ?_) (fun known => ?_)
    · cases refused
    · cases known.1
  | ok found =>
    change (Except.ok found, workspace) = (Except.ok value, after) ↔ _
    simp

theorem loadStepsFor_escapes {form : CommandForm} {paths : List Value}
    (framework : fault.kind.isFramework = true) :
    Escapes (loadStepsFor form paths) workspace fault after ↔
      Escapes (loadSteps paths) workspace fault after := by
  unfold loadStepsFor
  rw [Contained.escapes_before (fun _ => .pure _) framework, escapes_rescue]
  constructor
  · rintro ⟨raised, mid, loads, escapes⟩
    split at escapes
    · rw [Contained.refuse _ _ _ _ _ escapes] at framework
      cases framework
    · cases escapes
      exact loads
  · intro loads
    refine ⟨fault, after, loads, ?_⟩
    split
    · cases framework
    · rfl

/-- Work that begins with the paths of step files, where nothing but loading them lets a fault of the
library's own escape. -/
theorem stepPaths_escapes {arguments : Arguments} {further : List Value → Work Unit}
    (framework : fault.kind.isFramework = true)
    (loading : ∀ paths, Escapes (further paths) workspace fault after ↔
      Escapes (loadSteps paths) workspace fault after) :
    Escapes (stepPaths config arguments >>= further) workspace fault after ↔
      ∃ paths, stepPaths config arguments workspace = (.ok paths, workspace) ∧
        Escapes (loadSteps paths) workspace fault after := by
  rw [(stepPaths_contained _ _).escapes_behind framework]
  constructor
  · rintro ⟨paths, mid, named, escapes⟩
    obtain ⟨rfl, -⟩ := stepPaths_ok named
    exact ⟨paths, named, (loading paths).1 escapes⟩
  · rintro ⟨paths, named, escapes⟩
    exact ⟨paths, workspace, named, (loading paths).2 escapes⟩

theorem listSteps_escapes (framework : fault.kind.isFramework = true) :
    Escapes (listSteps config given) workspace fault after ↔
      ∃ paths, Loads config given workspace "list-steps" paths ∧
        Escapes (loadSteps paths) workspace fault after := by
  have shows : Contained (do
      let definitions := (← registry).list
      echo "Available Step Definitions:"
      echo (String.ofList (List.replicate 60 '='))
      echoAll (definitions.flatMap definitionLines)
      echo ("\nTotal: " ++ toString definitions.length)
      echo "Note: matching ignores the keyword; the first registered match wins") :=
    .bind .registry fun _ => .bind (.update _) fun _ => .bind (.update _) fun _ =>
      .bind (echoAll_contained _) fun _ => .bind (.update _) fun _ => .update _
  have loading (paths : List Value) := (Contained.escapes_before (fun _ => shows) framework).trans
    (show Escapes (loadStepsFor listForm paths) workspace fault after ↔
        Escapes (loadSteps paths) workspace fault after from
      loadStepsFor_escapes framework)
  unfold listSteps
  rw [(readArguments_contained _ _).escapes_behind framework]
  constructor
  · rintro ⟨arguments, mid, begun, escapes⟩
    obtain ⟨reads, rfl⟩ := ofUsage_ok.1 begun
    cases positional : arguments.positional with
    | cons first rest =>
      rw [positional] at escapes
      cases escapes
    | nil =>
      rw [positional] at escapes
      obtain ⟨paths, named, escapes⟩ := (stepPaths_escapes framework loading).1 escapes
      exact ⟨paths, .listing rfl reads positional named, escapes⟩
  · rintro ⟨paths, loads, escapes⟩
    cases loads with
    | previewing called => exact absurd called (by decide)
    | listing _ reads alone named =>
      refine ⟨_, workspace, ofUsage_ok.2 ⟨reads, rfl⟩, ?_⟩
      rw [alone]
      exact (stepPaths_escapes framework loading).2 ⟨paths, named, escapes⟩

theorem preview_escapes (framework : fault.kind.isFramework = true) :
    Escapes (preview config given) workspace fault after ↔
      ∃ paths, Loads config given workspace "preview" paths ∧
        Escapes (loadSteps paths) workspace fault after := by
  have loading (path : String) (paths : List Value) : Escapes
      (if (!paths.isEmpty) = true then do
          loadStepsFor previewForm paths
          showFile (!paths.isEmpty) path
        else showFile (!paths.isEmpty) path) workspace fault after ↔
      Escapes (loadSteps paths) workspace fault after := by
    cases paths with
    | nil =>
      have none : ¬ Escapes (loadSteps []) workspace fault after := by
        rw [Escapes, loadSteps_nil]
        rintro ⟨⟩
      refine iff_of_false (fun escapes => ?_) none
      rw [showFile_contained _ _ _ _ _ escapes] at framework
      cases framework
    | cons first rest =>
      exact (Contained.escapes_before (fun _ => showFile_contained _ _) framework).trans
        (loadStepsFor_escapes framework)
  unfold preview
  rw [(readArguments_contained _ _).escapes_behind framework]
  constructor
  · rintro ⟨arguments, mid, begun, escapes⟩
    obtain ⟨reads, rfl⟩ := ofUsage_ok.1 begun
    dsimp only at escapes
    cases positional : arguments.positional with
    | nil =>
      rw [positional] at escapes
      cases escapes
    | cons path surplus =>
      rw [positional] at escapes
      rw [(requirePaths_contained _ _ _).escapes_behind framework] at escapes
      obtain ⟨_, mid, found, escapes⟩ := escapes
      cases requirePath_ok found
      cases surplus with
      | cons _ _ => cases escapes
      | nil =>
        obtain ⟨paths, named, escapes⟩ := (stepPaths_escapes framework (loading path)).1 escapes
        exact ⟨paths, .previewing rfl reads positional found named, escapes⟩
  · rintro ⟨paths, loads, escapes⟩
    cases loads with
    | listing called => exact absurd called (by decide)
    | @previewing arguments path _ reads one found named =>
      refine ⟨_, workspace, ofUsage_ok.2 ⟨reads, rfl⟩, ?_⟩
      dsimp only
      rw [one]
      dsimp only
      rw [(requirePaths_contained _ _ _).escapes_behind framework]
      refine ⟨(), workspace, found, ?_⟩
      exact (stepPaths_escapes framework (loading path)).2 ⟨paths, named, escapes⟩

theorem isReported_of_framework (framework : fault.kind.isFramework = true) : isReported fault = true := by
  unfold isReported
  split
  · rfl
  · rw [framework, Bool.true_or]

theorem run_contained : Contained (run config given) := by
  have attaches : Contained (onWorld fun world => (.ok (), { world with results := .initial }.attach)) := by
    rintro _ _ _ ⟨⟩
  refine .bind (readRun_contained _ _) fun read => .bind attaches fun _ => ?_
  refine .bind (.finishing (.rescue fun fault => ?_) _) fun _ => .leave _
  split
  · exact .abort _
  · rename_i unreported
    refine .fail (Bool.eq_false_iff.2 fun framework => unreported ?_)
    exact isReported_of_framework framework

theorem showVersion_contained : Contained (showVersion given) :=
  .bind (readArguments_contained _ _) fun _ =>
    .ite (.bind (.refuse _ _) fun _ => .update _) (.update _)

theorem configure_contained (path : Option String) : Contained (configure path) := by
  refine .bind .get fun workspace => .bind (.rescue fun fault => ?_) fun config =>
    .bind (.update _) fun _ => .pure _
  split
  · exact .abort _
  · rename_i foreign
    exact .fail (Bool.eq_false_iff.2 foreign)

end Commands

/-! ## The command line -/

/-- A command is called, by its name and with some arguments, once the configuration is read. -/
structure Calls (arguments : List String) (workspace : Workspace) (name : String) (config : Config)
    (given : List String) (ready : Workspace) : Prop where
  reads : ∃ program, Arguments.read programForm.options false arguments = .ok program ∧
    program.positional = name :: given ∧
    configure (program.value? "--config") workspace = (.ok config, ready)
  known : (command? name).isSome = true

/-- A workspace with the report on a fault among the errors. -/
def Workspace.reporting (workspace : Workspace) (fault : Fault) : Workspace :=
  { workspace with errors := workspace.errors ++ ("Error: " ++ fault.message) ++ "\n" }

/-- A fault is raised where the command line has a handler for it: by reading the configuration, or
by what `run` does before it cleans up, which is to load step files, to build helpers, and to compile
and run the feature files and report on them. What is left then is `after`. -/
inductive Handled (arguments : List String) (workspace : Workspace) (fault : Fault)
    (after : Workspace) : Prop
  | configuring {program : Arguments} {name : String} {given : List String}
      (reads : Arguments.read programForm.options false arguments = .ok program)
      (called : program.positional = name :: given) (known : (command? name).isSome = true)
      (fails : Config.load ⟨workspace.tree.cwd, workspace.home, workspace.namedConfig⟩ workspace.tree
        ((program.value? "--config").filter fun path => !path.isEmpty) = .error fault)
      (same : after = workspace)
  | running {config : Config} {given : List String} {ready begun last : Workspace}
      {read : Arguments} {formats : List Value} {directory : Path}
      (calls : Calls arguments workspace "run" config given ready)
      (reads : readRun config given ready = (.ok (read, formats, directory), begun))
      (fails : Escapes (runBody config read formats directory) begun.watching fault last)
      (same : after = cleanUp last)

section Program

variable {arguments given : List String} {workspace ready after : Workspace} {name : String}
  {config : Config} {fault : Fault} {command : Config → List String → Work Unit}

theorem Calls.runProgram (calls : Calls arguments workspace name config given ready)
    (known : command? name = some command) :
    runProgram arguments workspace = command config given ready := by
  obtain ⟨⟨program, reads, called, configures⟩, -⟩ := calls
  rw [Command.runProgram, bind_of_ok (ofUsage_ok.2 ⟨reads, rfl⟩), called]
  dsimp only
  rw [known]
  dsimp only
  rw [bind_of_ok configures]

theorem configure_fails {path : Option String} (framework : fault.kind.isFramework = true)
    (fails : Config.load ⟨workspace.tree.cwd, workspace.home, workspace.namedConfig⟩ workspace.tree
      (path.filter fun given => !given.isEmpty) = .error fault) :
    configure path workspace = (.error (.leave 1), workspace.reporting fault) := by
  have got : Work.get workspace = (.ok workspace, workspace) := rfl
  have caught : (rescue (ofExcept (.error fault) : Work Config) fun fault =>
      if fault.kind.isFramework then abort fault.message else fail fault) workspace =
        (.error (.leave 1), workspace.reporting fault) := by
    change (if fault.kind.isFramework then abort fault.message else fail fault : Work Config)
      workspace = _
    rw [if_pos framework]
    rfl
  rw [configure, bind_of_ok got]
  dsimp only
  rw [fails, bind_eq, caught]

/-- A fault of the library's own that is raised where there is a handler is reported. -/
theorem Handled.reported (handled : Handled arguments workspace fault after)
    (framework : fault.kind.isFramework = true) :
    runProgram arguments workspace = (.error (.leave 1), after.reporting fault) := by
  cases handled with
  | running calls reads fails same =>
    rw [calls.runProgram rfl, run_of_body reads fails, same, quit, isReported_of_framework framework]
    rfl
  | configuring reads called known fails same =>
    obtain ⟨command, known⟩ := Option.isSome_iff_exists.1 known
    rw [runProgram, bind_of_ok (ofUsage_ok.2 ⟨reads, rfl⟩), called]
    dsimp only
    rw [known]
    dsimp only
    rw [bind_eq, configure_fails framework fails, same]

/-- What escapes from the command line is what loading step files raises for `list-steps` or
`preview`. -/
theorem runProgram_escapes (framework : fault.kind.isFramework = true) :
    Escapes (runProgram arguments) workspace fault after ↔ ∃ name config given ready paths,
      Calls arguments workspace name config given ready ∧ Loads config given ready name paths ∧
        Escapes (loadSteps paths) ready fault after := by
  constructor
  · intro escapes
    rw [runProgram, (Contained.ofUsage _ _).escapes_behind framework] at escapes
    obtain ⟨program, mid, begins, escapes⟩ := escapes
    obtain ⟨reads, rfl⟩ := ofUsage_ok.1 begins
    cases called : program.positional with
    | nil => rw [called] at escapes; cases escapes
    | cons name given =>
      rw [called] at escapes
      cases known : command? name with
      | none =>
        simp only [known] at escapes
        cases escapes
      | some command =>
        simp only [known] at escapes
        rw [(configure_contained _).escapes_behind framework] at escapes
        obtain ⟨config, ready, configures, escapes⟩ := escapes
        have calls : Calls arguments workspace name config given ready :=
          ⟨⟨program, reads, called, configures⟩, by rw [known]; rfl⟩
        unfold command? at known
        split at known <;> cases known
        · rw [run_contained _ _ _ escapes] at framework
          cases framework
        · obtain ⟨paths, loads, escapes⟩ := (listSteps_escapes framework).1 escapes
          exact ⟨_, config, given, ready, paths, calls, loads, escapes⟩
        · obtain ⟨paths, loads, escapes⟩ := (preview_escapes framework).1 escapes
          exact ⟨_, config, given, ready, paths, calls, loads, escapes⟩
        · rw [showVersion_contained _ _ _ escapes] at framework
          cases framework
  · rintro ⟨name, config, given, ready, paths, calls, loads, escapes⟩
    unfold Escapes
    cases loads with
    | listing called reads alone named =>
      subst called
      rw [calls.runProgram rfl]
      exact (listSteps_escapes framework).2 ⟨paths, .listing rfl reads alone named, escapes⟩
    | previewing called reads one found named =>
      subst called
      rw [calls.runProgram rfl]
      exact (preview_escapes framework).2 ⟨paths, .previewing rfl reads one found named, escapes⟩

end Program

/-- A fault of this library's own that is raised while the configuration is read, or by `run`, is
reported, and the command line exits with 1. Such a fault escapes exactly when it is raised by loading
step files for `list-steps` or for `preview`; then nothing is reported. -/
theorem framework_faults {fault : Fault} (framework : fault.kind.isFramework = true)
    (arguments : List String) (workspace after : Workspace) :
    (Handled arguments workspace fault after →
      runProgram arguments workspace = (.error (.leave 1), after.reporting fault)) ∧
    (Escapes (runProgram arguments) workspace fault after ↔ ∃ name config given ready paths,
      Calls arguments workspace name config given ready ∧ Loads config given ready name paths ∧
        Escapes (loadSteps paths) ready fault after) :=
  ⟨fun handled => handled.reported framework, runProgram_escapes framework⟩

/-- The fault that escapes from a computation that ends so. -/
def escaped? {α : Type} : Except Stop α → Option Fault
  | .error (.escape (.fault fault)) => some fault
  | _ => none

theorem escapes_of_escaped? {α : Type} {work : Work α} {workspace : Workspace} {fault : Fault}
    (escaped : escaped? (work workspace).1 = some fault) :
    Escapes work workspace fault (work workspace).2 := by
  unfold escaped? at escaped
  split at escaped <;> cases escaped
  rename_i raised
  exact Prod.ext raised rfl

/-- A workspace with a step file whose pattern has an unknown placeholder. -/
def bogusWorkspace : Workspace :=
  { wellWorkspace ["Feature: F"] with
    stepFiles := [⟨["s.py"], [], [⟨"bad", .script "bad" ⟨[], 0, true, []⟩ false false 0 [],
      [⟨"given", .text "a \x7bbogus\x7d", ""⟩]⟩], none⟩] }

def bogusFault : Fault :=
  .unsupportedPlaceholder "bogus" "a \x7bbogus\x7d"

/-- What the configuration comes to that nothing is said about, and where it is read. -/
def bogusConfig : Config :=
  (configure none bogusWorkspace).1.toOption.getD bareConfig

def bogusReady : Workspace :=
  (configure none bogusWorkspace).2

/-- What `run` is given, and where it begins and is stopped. -/
def bogusRead : Arguments × List Value × Path :=
  (readRun bogusConfig ["f", "-s", "s.py"] bogusReady).1.toOption.getD (⟨[], []⟩, [], ⟨"", []⟩)

def bogusBegun : Workspace :=
  (readRun bogusConfig ["f", "-s", "s.py"] bogusReady).2

def bogusStopped : Workspace :=
  (runBody bogusConfig bogusRead.1 bogusRead.2.1 bogusRead.2.2 bogusBegun.watching).2

theorem bogus_calls : Calls ["run", "f", "-s", "s.py"] bogusWorkspace "run" bogusConfig
    ["f", "-s", "s.py"] bogusReady := by
  have read : ((Arguments.read programForm.options false ["run", "f", "-s", "s.py"]).toOption.map
      fun program => (program.options, program.positional)) =
        some ([], ["run", "f", "-s", "s.py"]) := by decide +kernel
  obtain ⟨⟨options, positional⟩, known, same⟩ := Option.map_eq_some_iff.1 read
  cases same
  refine ⟨⟨_, eq_ok_of_toOption known, rfl, ?_⟩, rfl⟩
  exact ok_of_isSome bareConfig (by decide +kernel)

theorem bogus_handled :
    Handled ["run", "f", "-s", "s.py"] bogusWorkspace bogusFault (cleanUp bogusStopped) := by
  have reads : readRun bogusConfig ["f", "-s", "s.py"] bogusReady = (.ok bogusRead, bogusBegun) :=
    ok_of_isSome _ (by decide +kernel)
  have fails : Escapes (runBody bogusConfig bogusRead.1 bogusRead.2.1 bogusRead.2.2)
      bogusBegun.watching bogusFault bogusStopped :=
    escapes_of_escaped? (by decide +kernel)
  exact .running bogus_calls reads fails rfl

theorem framework_faults_run : bogusFault.kind.isFramework = true ∧
    Handled ["run", "f", "-s", "s.py"] bogusWorkspace bogusFault (cleanUp bogusStopped) ∧
    runProgram ["run", "f", "-s", "s.py"] bogusWorkspace =
      (.error (.leave 1), (cleanUp bogusStopped).reporting bogusFault) := by
  have framework : bogusFault.kind.isFramework = true := by decide
  exact ⟨framework, bogus_handled, (framework_faults framework _ _ _).1 bogus_handled⟩

/-- A step file whose pattern does not compile ends `list-steps` and `preview` with an exception and
without a message. -/
theorem pattern_fault_escapes : bogusFault.kind = .patternCompile ∧
    ∀ arguments ∈ [["list-steps", "-s", "s.py"], ["preview", "f", "-s", "s.py"]],
      ending (runProgram arguments bogusWorkspace).1 = (1, some (.fault bogusFault)) ∧
      (runProgram arguments bogusWorkspace).2.errors = "" := by
  decide +kernel

end Command

end FeatureRunner
