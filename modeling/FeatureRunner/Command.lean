import FeatureRunner.Command.Workspace

/-!
The command line: `run` runs feature files and reports on them, `list-steps` lists the step
definitions, `preview` shows what a feature file would run, and `version` names the version.
-/

namespace FeatureRunner.Command
open Work

def version : String := "0.1.0"

def stepsOption : OptionForm := ⟨["--steps", "-s"], true⟩
def reportOption : OptionForm := ⟨["--report", "-r"], true⟩
def directoryOption : OptionForm := ⟨["--output-dir", "-o"], true⟩
def traceOption : OptionForm := ⟨["--trace"], false⟩
def configOption : OptionForm := ⟨["--config", "-c"], true⟩
def verboseOption : OptionForm := ⟨["--verbose", "-v"], false⟩

/-- How a command is called, for messages: its name, if it is not the whole program, and the form
of its arguments. -/
structure CommandForm where
  name : String
  arguments : String
  options : List OptionForm

def programForm : CommandForm := ⟨"", "[OPTIONS] COMMAND [ARGS]...", [configOption, verboseOption]⟩
def runForm : CommandForm :=
  ⟨"run", "[OPTIONS] FEATURE_FILES...", [stepsOption, reportOption, directoryOption, traceOption]⟩
def listForm : CommandForm := ⟨"list-steps", "[OPTIONS]", [stepsOption]⟩
def previewForm : CommandForm := ⟨"preview", "[OPTIONS] FEATURE_FILE", [stepsOption]⟩
def versionForm : CommandForm := ⟨"version", "[OPTIONS]", []⟩

/-- The words by which a command is called. -/
def CommandForm.call (form : CommandForm) : String :=
  if form.name.isEmpty then "cli" else "cli " ++ form.name

/-- Reports arguments that do not fit and leaves. -/
def refuse {α : Type} (form : CommandForm) (problem : UsageProblem) : Work α := do
  echoError ("Usage: " ++ form.call ++ " " ++ form.arguments ++ "\nTry '" ++ form.call ++
    " --help' for help.\n\nError: " ++ problem.message)
  stop (.leave 2)

def ofUsage {α : Type} (form : CommandForm) : Except UsageProblem α → Work α
  | .ok value => pure value
  | .error problem => refuse form problem

/-- Reads the arguments of a command, among which options may stand anywhere. -/
def readArguments (form : CommandForm) (arguments : List String) : Work Arguments :=
  ofUsage form (Arguments.read form.options true arguments)

/-- Refuses paths that lead nowhere. -/
def requirePaths (form : CommandForm) (argument : String) : List String → Work Unit
  | [] => pure ()
  | path :: rest => do
    let tree ← tree
    if !path.isEmpty && tree.has (.ofText path) then requirePaths form argument rest
    else refuse form (.noSuchPath argument path)

/-- The values of a list, tuple, text or mapping one by one. -/
def itemsOf (value : Value) : Work (List Value) :=
  ofExcept value.items?

/-- The values of one that is spread out in a list with others. -/
def spread? (value : Value) : Except Fault (List Value) :=
  value.items?.mapError fun _ => .misuse ("Value after * must be an iterable, not " ++ value.typeName)

/-- The paths of step files that the configuration names, and then those given as options. -/
def stepPaths (config : Config) (arguments : Arguments) : Work (List Value) := do
  let configured ← ofExcept (spread? (config.getD "steps.paths" (.list [])))
  return configured ++ (arguments.values "--steps").map .text

/-- The formats of the reports to be written: those given as options, or else those configured. -/
def reportFormats (config : Value) (arguments : Arguments) : Work (List Value) := do
  let given := arguments.values "--report"
  if given.isEmpty then itemsOf (← ofExcept (config.getOr "formats" (.list [])))
  else return given.map .text

/-- The directory that reports are written to: the one given as an option, or else the one
configured. -/
def reportDirectory (config : Value) (arguments : Arguments) : Work Path := do
  let given := (arguments.value? "--output-dir").getD ""
  if !given.isEmpty then return .ofText given
  else
    match ← ofExcept (config.getOr "output_dir" (.text "test-results")) with
    | .text path => return .ofText path
    | value =>
      fail (.misuse ("expected str, bytes or os.PathLike object, not " ++ value.typeName))

/-- The lines on a test and how it ended. -/
def outcomeLines (test : Test) (fault : Option Fault) : List String :=
  if test.pending then ["  - " ++ test.title ++ " (pending)"]
  else match fault with
    | none => ["  ✓ " ++ test.title]
    | some fault => ["  ✗ " ++ test.title, "      Error: " ++ fault.message]

/-- Whether a test that ended so counts as failed. -/
def countsFailed (test : Test) (fault : Option Fault) : Bool :=
  !test.pending && fault.isSome

def echoAll : List String → Work Unit
  | [] => pure ()
  | line :: rest => do
    echo line
    echoAll rest

/-- Compiles and runs one feature file and answers how many of its tests failed. -/
def runFile (showTrace : Bool) (path : String) : Work Nat := do
  let text ← readText path
  let suite ← ofExcept (Suite.compile (← registry) text (some path))
  echo ("\nFeature: " ++ suite.title)
  onWorld fun world => (.ok (), { world with recorder := world.recorder.start })
  let result ← onWorld fun world => world.runLoop suite.run
  onWorld fun world => (.ok (), { world with recorder := world.recorder.stop })
  let endings := suite.tests.zip (Suite.faults result)
  echoAll (endings.flatMap fun (test, fault) => outcomeLines test fault)
  if showTrace then
    echo "\nTrace:"
    echoAll ((← get).world.recorder.trace.map ("  " ++ ·))
  return (endings.filter fun (test, fault) => countsFailed test fault).length

/-- Runs feature files in order and answers how many tests failed. -/
def runFiles (showTrace : Bool) : List String → Work Nat
  | [] => pure 0
  | path :: rest => do
    let failed ← runFile showTrace path
    return failed + (← runFiles showTrace rest)

/-- Prints the counts of the results. -/
def echoSummary (results : Results) : Work Unit := do
  echo "\nTest Execution Summary:"
  echo ("  Total: " ++ toString results.total)
  echo ("  Passed: " ++ toString (results.count .passed))
  echo ("  Failed: " ++ toString (results.count .failed))
  echo ("  Skipped: " ++ toString (results.count .skipped))

/-- Writes the reports in some formats. -/
def writeReports (directory : Path) (results : Value) : List Value → Work Unit
  | [] => pure ()
  | format :: rest => do
    let clock := (← get).world.clock
    let file ← ofExcept (generateReport clock directory results format.display)
    Work.write file
    echo ("Report: " ++ file.path.text)
    writeReports directory results rest

/-- Loads the step files and creates the helpers. -/
def prepare (config : Config) (arguments : Arguments) : Work Unit := do
  let count ← loadSteps (← stepPaths config arguments)
  echo ("Loaded " ++ toString count ++ " step definitions")
  let helpers := config.getD "helpers" (.dict [])
  onWorld fun world =>
    let (result, container) :=
      world.container.create world.modules (.record [("helpers", helpers)])
    (result.mapError .fault, { world with container := container })

/-- Everything between attaching the collector and detaching it; answers how many tests failed. -/
def runBody (config : Config) (arguments : Arguments) (formats : List Value) (directory : Path) :
    Work Nat := do
  prepare config arguments
  let failed ← runFiles (arguments.has "--trace") arguments.positional
  let world := (← get).world
  echoSummary world.results
  writeReports directory world.collected formats
  return failed

/-- Whether a fault ends `run` with a message instead of escaping. -/
def isReported : Fault → Bool
  | .stepsNotFound _ => true
  | fault => fault.kind.isFramework || fault.kind == .parse

/-- Detaches the collector and empties the container. -/
def cleanUp (workspace : Workspace) : Workspace :=
  let world := workspace.world.detach
  { workspace with world := { world with container := world.container.clear } }

/-- What `run` is given: its arguments, and the formats and the directory of its reports. -/
def readRun (config : Config) (arguments : List String) :
    Work (Arguments × List Value × Path) := do
  let arguments ← readArguments runForm arguments
  match (arguments.values "--report").find? fun format => (ReportFormat.ofName? format).isNone with
  | some format => refuse runForm (.noSuchChoice "'-r' / '--report'" format
      (ReportFormat.all.map ReportFormat.name))
  | none => pure ()
  if arguments.positional.isEmpty then refuse runForm (.argumentMissing "FEATURE_FILES...")
  requirePaths runForm "FEATURE_FILES..." arguments.positional
  let report := config.part "report"
  let formats ← reportFormats report arguments
  let directory ← reportDirectory report arguments
  return (arguments, formats, directory)

def run (config : Config) (arguments : List String) : Work Unit := do
  let (arguments, formats, directory) ← readRun config arguments
  onWorld fun world => (.ok (), { world with results := .initial }.attach)
  let failed ← finishing
    ((runBody config arguments formats directory).rescue fun fault =>
      if isReported fault then abort fault.message else fail fault) cleanUp
  stop (.leave (if failed == 0 then 0 else 1))

/-- Loads step files; a path that leads nowhere is refused. -/
def loadStepsFor (form : CommandForm) (paths : List Value) : Work Unit := do
  let _ ← (loadSteps paths).rescue fun
    | .stepsNotFound path => refuse form (.invalid (Fault.message (.stepsNotFound path)))
    | fault => fail fault

/-- A word with its first letter in upper case and the others in lower case. -/
def capitalized (word : String) : String :=
  match word.toList with
  | [] => ""
  | first :: rest => Text.upper (String.ofList [first]) ++ Text.lower (String.ofList rest)

/-- A text with spaces behind it, up to a width. -/
def padded (width : Nat) (text : String) : String :=
  text ++ String.ofList (List.replicate (width - text.length) ' ')

/-- The lines on a definition. -/
def definitionLines (card : DefinitionCard) : List String :=
  ("  " ++ padded 6 (capitalized card.keyword) ++ " " ++ card.pattern) ::
    if card.description.isEmpty then [] else ["         " ++ card.description]

def listSteps (config : Config) (arguments : List String) : Work Unit := do
  let arguments ← readArguments listForm arguments
  if !arguments.positional.isEmpty then refuse listForm (.surplus arguments.positional)
  loadStepsFor listForm (← stepPaths config arguments)
  let definitions := (← registry).list
  echo "Available Step Definitions:"
  echo (String.ofList (List.replicate 60 '='))
  echoAll (definitions.flatMap definitionLines)
  echo ("\nTotal: " ++ toString definitions.length)
  echo "Note: matching ignores the keyword; the first registered match wins"

/-- Prints a step, with a mark that tells whether a definition matches it where that is checked. -/
def echoStep (check : Bool) (step : FeatureStep) : Work Unit := do
  let mark ←
    if check then do
      let found ← ofExcept ((← registry).find? step.text)
      pure (if found.isSome then "✓ " else "✗ ")
    else pure ""
  echo ("    " ++ mark ++ step.keyword ++ " " ++ step.text)

def echoSteps (check : Bool) : List FeatureStep → Work Unit
  | [] => pure ()
  | step :: rest => do
    echoStep check step
    echoSteps check rest

def echoScenarios (check : Bool) : List Scenario → Work Unit
  | [] => pure ()
  | scenario :: rest => do
    echo ("\n  " ++ scenario.keyword ++ ": " ++ scenario.name)
    if !scenario.tags.isEmpty then
      echo ("    Tags: " ++ " ".intercalate (scenario.tags.map ("@" ++ ·)))
    echoSteps check scenario.steps
    echoScenarios check rest

/-- Prints what a feature would run. Rules are not shown. -/
def echoFeature (check : Bool) (feature : Feature) : Work Unit := do
  echo ("Feature: " ++ feature.name)
  if !feature.description.isEmpty then echo ("  " ++ " ".intercalate feature.description)
  match feature.body.background with
  | some steps =>
    echo "\n  Background:"
    echoSteps check steps
  | none => pure ()
  echoScenarios check feature.body.scenarios
  echo ("\nTotal scenarios: " ++ toString feature.body.scenarios.length)

def preview (config : Config) (arguments : List String) : Work Unit := do
  let arguments ← readArguments previewForm arguments
  match arguments.positional with
  | [] => refuse previewForm (.argumentMissing "FEATURE_FILE")
  | path :: surplus =>
    requirePaths previewForm "FEATURE_FILE" [path]
    if !surplus.isEmpty then refuse previewForm (.surplus surplus)
    let paths ← stepPaths config arguments
    let check := !paths.isEmpty
    if check then loadStepsFor previewForm paths
    let text ← readText path
    match Feature.read text (some path) with
    | .error (.parse fault) =>
      echoError ("Error parsing feature file: " ++ Fault.message (.parse fault))
      stop (.leave 1)
    | .error fault => fail fault
    | .ok none =>
      echoError ("No feature found in " ++ path)
      stop (.leave 1)
    | .ok (some feature) => echoFeature check feature

def showVersion (arguments : List String) : Work Unit := do
  let arguments ← readArguments versionForm arguments
  if !arguments.positional.isEmpty then refuse versionForm (.surplus arguments.positional)
  echo ("BDD Core v" ++ version)

/-- Reads the configuration, whose faults are reported, and sets the policy of the registry. -/
def configure (path : Option String) : Work Config := do
  let workspace ← get
  let places : Config.Places := ⟨workspace.tree.cwd, workspace.home, workspace.namedConfig⟩
  let path := path.filter fun given => !given.isEmpty
  let config ← (ofExcept (Config.load places workspace.tree path)).rescue fun fault =>
    if fault.kind.isFramework then abort fault.message else fail fault
  update fun workspace => { workspace with registry := { workspace.registry with
    whitespace := config.getD "steps.whitespace" .null } }
  return config

/-- The command of a name. -/
def command? : String → Option (Config → List String → Work Unit)
  | "run" => some run
  | "list-steps" => some listSteps
  | "preview" => some preview
  | "version" => some fun _ => showVersion
  | _ => none

/-- Runs the command line. -/
def runProgram (arguments : List String) : Work Unit := do
  let program ← ofUsage programForm (Arguments.read programForm.options false arguments)
  match program.positional with
  | [] => refuse programForm .commandMissing
  | name :: rest =>
    match command? name with
    | none => refuse programForm (.noSuchCommand name)
    | some command =>
      let config ← configure (program.value? "--config")
      command config rest

/-- How a run of the command line ended: its exit code, and the failure that escaped it. -/
def ending : Except Stop Unit → Nat × Option Failure
  | .ok () => (0, none)
  | .error (.leave code) => (code, none)
  | .error (.escape failure) => (1, some failure)

end FeatureRunner.Command
