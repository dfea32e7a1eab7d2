import FeatureRunner.Proofs.Command.Preview
import FeatureRunner.Proofs.Command.Summary

/-!
A feature file that does not compile ends a `run` command. Files are compiled one by one, each just
before it is run; so the files before it have been run by then, and neither it nor a file behind it
ever is.

Main statement: `uncompiled_ends_run`.
-/

namespace FeatureRunner
open FeatureRunner.World

namespace Command
open Work

/-! ## What a command runs -/

/-- The worlds that steps are taken from while feature files are run, up to one that fails. -/
def filesRan (showTrace : Bool) : List String → Workspace → History
  | [], _ => []
  | path :: rest, workspace =>
    filePast path workspace ++
      match runFile showTrace path workspace with
      | (.ok _, after) => filesRan showTrace rest after
      | (.error _, _) => []

/-- The worlds that a `run` command takes steps from. -/
def commandPast (config : Config) (given : List String) (workspace : Workspace) : History :=
  match readRun config given workspace with
  | (.ok (arguments, _, _), ready) =>
    match prepare config arguments ready.watching with
    | (.ok (), prepared) => filesRan (arguments.has "--trace") arguments.positional prepared
    | (.error _, _) => []
  | (.error _, _) => []

/-- How a `run` command exits early: some faults are reported and others escape, and everything is
cleaned up. -/
def quit (reason : Stop) (workspace : Workspace) : Except Stop Unit × Workspace :=
  match reason with
  | .escape (.fault fault) =>
    if isReported fault then
      (.error (.leave 1), cleanUp
        { workspace with errors := workspace.errors ++ ("Error: " ++ fault.message) ++ "\n" })
    else (.error reason, cleanUp workspace)
  | reason => (.error reason, cleanUp workspace)

/-! ## Files leave the step definitions alone -/

/-- Some work leaves the files and the step definitions alone. -/
def Spares {α : Type} (work : Work α) : Prop :=
  ∀ workspace, (work workspace).2.tree = workspace.tree ∧
    (work workspace).2.registry = workspace.registry

namespace Spares

variable {α β : Type} {work : Work α}

theorem pure (value : α) : Spares (Pure.pure value : Work α) :=
  fun _ => ⟨rfl, rfl⟩

theorem get : Spares Work.get :=
  fun _ => ⟨rfl, rfl⟩

theorem registry : Spares Work.registry :=
  fun _ => ⟨rfl, rfl⟩

theorem onWorld (change : World → Except Failure α × World) : Spares (Work.onWorld change) :=
  fun _ => ⟨rfl, rfl⟩

theorem ofExcept (answer : Except Fault α) : Spares (Work.ofExcept answer) := by
  cases answer with
  | ok value => exact pure value
  | error fault => exact fun _ => ⟨rfl, rfl⟩

theorem readText (path : String) : Spares (Work.readText path) := by
  intro workspace
  rw [readText_eq]
  split <;> exact ⟨rfl, rfl⟩

theorem echo (line : String) : Spares (Work.echo line) :=
  fun _ => ⟨rfl, rfl⟩

theorem echoAll (lines : List String) : Spares (Command.echoAll lines) := by
  intro workspace
  rw [echoAll_eq]
  exact ⟨rfl, rfl⟩

theorem bind {further : α → Work β} (first : Spares work) (second : ∀ value, Spares (further value)) :
    Spares (work >>= further) := by
  intro workspace
  obtain ⟨tree, registry⟩ := first workspace
  rw [bind_eq]
  cases found : work workspace with
  | mk result mid =>
    rw [found] at tree registry
    cases result with
    | ok value => exact ⟨(second value mid).1.trans tree, (second value mid).2.trans registry⟩
    | error reason => exact ⟨tree, registry⟩

end Spares

theorem runFile_spares (showTrace : Bool) (path : String) : Spares (runFile showTrace path) := by
  refine .bind (.readText path) fun text => .bind .registry fun registry => ?_
  refine .bind (.ofExcept _) fun suite => .bind (.echo _) fun _ => .bind (.onWorld _) fun _ => ?_
  refine .bind (.onWorld _) fun result => .bind (.onWorld _) fun _ => .bind (.echoAll _) fun _ => ?_
  dsimp only
  split
  · refine .bind (.echo _) fun _ => .bind .get fun workspace => ?_
    exact .bind (.echoAll _) fun _ => .pure _
  · exact .pure _

/-! ## A file that does not compile -/

/-- The text of a feature file does not compile with the step definitions that there are. -/
def Uncompiled (workspace : Workspace) (path : String) (fault : Fault) : Prop :=
  ∃ text, workspace.tree.read? (.ofText path) = some text ∧
    Suite.compile workspace.registry text (some path) = .error fault

/-- A feature file compiles, and the worlds are those that the run of its suite takes steps from. -/
def Compiled (workspace : Workspace) (path : String) (past : History) : Prop :=
  ∃ text suite start, workspace.tree.read? (.ofText path) = some text ∧
    Suite.compile workspace.registry text (some path) = .ok suite ∧
    past = World.loopPast start suite.run

section Files

variable {workspace next : Workspace} {showTrace : Bool} {path : String} {fault : Fault}

theorem Uncompiled.congr (uncompiled : Uncompiled workspace path fault)
    (same : next.tree = workspace.tree ∧ next.registry = workspace.registry) :
    Uncompiled next path fault := by
  rw [Uncompiled, same.1, same.2]
  exact uncompiled

theorem Uncompiled.runFile (uncompiled : Uncompiled workspace path fault) (showTrace : Bool) :
    runFile showTrace path workspace = (.error (.escape (.fault fault)), workspace) ∧
      filePast path workspace = [] := by
  obtain ⟨text, found, failed⟩ := uncompiled
  have read : readText path workspace = (.ok text, workspace) := by rw [readText_eq, found]
  have known : Work.registry workspace = (.ok workspace.registry, workspace) := rfl
  constructor
  · rw [Command.runFile, bind_of_ok read, bind_of_ok known, failed]
    rfl
  · simp [filePast, found, failed]

/-- Files are run up to the one that does not compile. -/
theorem Uncompiled.runFiles (uncompiled : Uncompiled workspace path fault) (showTrace : Bool)
    (earlier later : List String) :
    runFiles showTrace (earlier ++ path :: later) workspace =
        (match Command.runFiles showTrace earlier workspace with
          | (.ok _, mid) => (.error (.escape (.fault fault)), mid)
          | stopped => stopped) ∧
      filesRan showTrace (earlier ++ path :: later) workspace = filesRan showTrace earlier workspace := by
  induction earlier generalizing workspace with
  | nil =>
    obtain ⟨stopped, idle⟩ := uncompiled.runFile showTrace
    have ends : Command.runFiles showTrace (path :: later) workspace =
        (.error (.escape (.fault fault)), workspace) := by
      rw [Command.runFiles, bind_eq, stopped]
    have past : filesRan showTrace (path :: later) workspace = [] := by
      rw [filesRan, stopped, idle]
      rfl
    exact ⟨ends, past⟩
  | cons first rest ih =>
    have spared := runFile_spares showTrace first workspace
    rw [List.cons_append, Command.runFiles, Command.runFiles, filesRan, filesRan, bind_eq, bind_eq]
    cases ran : Command.runFile showTrace first workspace with
    | mk result mid =>
      rw [ran] at spared
      cases result with
      | error reason => exact ⟨rfl, rfl⟩
      | ok failed =>
        obtain ⟨stopped, same⟩ := ih (uncompiled.congr spared)
        dsimp only at stopped same ⊢
        rw [bind_eq, bind_eq, stopped, same]
        refine ⟨?_, rfl⟩
        cases Command.runFiles showTrace rest mid with
        | mk result last => cases result <;> rfl

/-- Whatever is run belongs to the run of a suite that one of the files was compiled to. -/
theorem compiled_of_filesRan {paths : List String} {past : World}
    (member : past ∈ filesRan showTrace paths workspace) :
    ∃ path ∈ paths, ∃ history, Compiled workspace path history ∧ past ∈ history := by
  induction paths generalizing workspace with
  | nil => cases member
  | cons first rest ih =>
    rw [filesRan, List.mem_append] at member
    rcases member with member | member
    · refine ⟨first, by simp, filePast first workspace, ?_, member⟩
      unfold filePast at member ⊢
      split at member
      · rename_i text found
        split at member
        · rename_i suite compiled
          exact ⟨text, suite, _, found, compiled, rfl⟩
        · cases member
      · cases member
    · have spared := runFile_spares showTrace first workspace
      split at member
      · rename_i failed after ran
        rw [ran] at spared
        obtain ⟨path, listed, history, ⟨text, suite, start, found, compiled, rfl⟩, inside⟩ := ih member
        rw [spared.1] at found
        rw [spared.2] at compiled
        exact ⟨path, List.mem_cons_of_mem _ listed, _, ⟨text, suite, start, found, compiled, rfl⟩, inside⟩
      · cases member

end Files

/-! ## The command -/

section Runs

variable {config : Config} {given : List String} {workspace ready prepared : Workspace}
  {arguments : Arguments} {formats : List Value} {directory : Path}

/-- A command that is stopped after attaching the collector quits. -/
theorem run_of_body {stopped : Stop} {after : Workspace}
    (reads : readRun config given workspace = (.ok (arguments, formats, directory), ready))
    (body : runBody config arguments formats directory ready.watching = (.error stopped, after)) :
    run config given workspace = quit stopped after := by
  have attaches : onWorld (fun world => (.ok (), { world with results := .initial }.attach)) ready =
      (.ok (), ready.watching) := rfl
  rw [run, bind_of_ok reads]
  dsimp only
  rw [bind_of_ok attaches, bind_eq]
  simp only [finishing, rescue, body]
  rcases stopped with code | (fault | _)
  · rfl
  · by_cases reported : isReported fault
    · simp only [reported, quit, if_true]
      rfl
    · simp only [reported, quit]
      rfl
  · rfl

/-- A command whose files stop it quits. -/
theorem run_of_stopped {stopped : Stop} {after : Workspace}
    (reads : readRun config given workspace = (.ok (arguments, formats, directory), ready))
    (prepares : prepare config arguments ready.watching = (.ok (), prepared))
    (stops : runFiles (arguments.has "--trace") arguments.positional prepared =
      (.error stopped, after)) : run config given workspace = quit stopped after := by
  refine run_of_body reads ?_
  rw [runBody, bind_of_ok prepares, bind_eq, stops]

/-- What becomes of a `run` command with a file that does not compile: it does what it would do with
the files before it, and quits. -/
structure EndsAt (config : Config) (given : List String) (workspace : Workspace) (showTrace : Bool)
    (earlier : List String) (fault : Fault) (prepared : Workspace) : Prop where
  ends : run config given workspace = match runFiles showTrace earlier prepared with
    | (.ok _, mid) => quit (.escape (.fault fault)) mid
    | (.error stopped, mid) => quit stopped mid
  past : commandPast config given workspace = filesRan showTrace earlier prepared
  compiled : ∀ past ∈ commandPast config given workspace,
    ∃ path ∈ earlier, ∃ history, Compiled prepared path history ∧ past ∈ history

/-- When a file of a `run` command does not compile, the command exits with that fault, unless a file
before it has stopped it, and nothing but the files before it has been run. -/
theorem uncompiled_ends_run {earlier later : List String} {path : String} {fault : Fault}
    (reads : readRun config given workspace = (.ok (arguments, formats, directory), ready))
    (prepares : prepare config arguments ready.watching = (.ok (), prepared))
    (files : arguments.positional = earlier ++ path :: later)
    (uncompiled : Uncompiled prepared path fault) :
    EndsAt config given workspace (arguments.has "--trace") earlier fault prepared := by
  obtain ⟨stopped, same⟩ := uncompiled.runFiles (arguments.has "--trace") earlier later
  have past : commandPast config given workspace =
      filesRan (arguments.has "--trace") earlier prepared := by
    simp only [commandPast, reads, prepares, files, same]
  refine ⟨?_, past, fun world member => compiled_of_filesRan (past ▸ member)⟩
  rw [← files] at stopped
  cases ran : runFiles (arguments.has "--trace") earlier prepared with
  | mk result mid =>
    rw [ran] at stopped
    cases result with
    | ok failed => exact run_of_stopped reads prepares stopped
    | error reason => exact run_of_stopped reads prepares stopped

end Runs

/-- A workspace with a feature file that can be run and one with a step that has no definition. -/
def pairWorkspace : Workspace :=
  { wellWorkspace [] with
    tree := ⟨⟨"/", []⟩, [(["f"], fileText ["Feature: F", "Scenario: S", "Given rest"]),
      (["g"], fileText ["Feature: G", "Scenario: T", "Given fly"]), (["s.py"], "")]⟩ }

/-- A step body is called. -/
def CallsStep (world : World) : Bool :=
  match world.act? with
  | some (_, .call .step _ _) => true
  | _ => false

/-- The workspace in which the files of a command come up. -/
def pairPrepared : Workspace :=
  (prepare bareConfig ⟨[("--steps", "s.py")], ["f", "g"]⟩
    (readRun bareConfig ["f", "g", "-s", "s.py"] pairWorkspace).2.watching).2

theorem pairWorkspace_reads : ∃ formats directory,
    readRun bareConfig ["f", "g", "-s", "s.py"] pairWorkspace =
      (.ok (⟨[("--steps", "s.py")], ["f", "g"]⟩, formats, directory),
        (readRun bareConfig ["f", "g", "-s", "s.py"] pairWorkspace).2) := by
  have read : ((readRun bareConfig ["f", "g", "-s", "s.py"] pairWorkspace).1.toOption.map fun found =>
      (found.1.options, found.1.positional)) = some ([("--steps", "s.py")], ["f", "g"]) := by
    decide +kernel
  obtain ⟨⟨⟨options, positional⟩, formats, directory⟩, known, same⟩ := Option.map_eq_some_iff.1 read
  cases same
  exact ⟨formats, directory, ok_of_toOption known⟩

theorem pairWorkspace_prepares : prepare bareConfig ⟨[("--steps", "s.py")], ["f", "g"]⟩
    (readRun bareConfig ["f", "g", "-s", "s.py"] pairWorkspace).2.watching = (.ok (), pairPrepared) :=
  ok_of_toOption (by decide +kernel)

theorem pairWorkspace_uncompiled : Uncompiled pairPrepared "g" (.noMatch "fly") := by
  refine ⟨fileText ["Feature: G", "Scenario: T", "Given fly"], by decide +kernel, ?_⟩
  have refused : (match Suite.compile pairPrepared.registry
      (fileText ["Feature: G", "Scenario: T", "Given fly"]) (some "g") with
      | .error fault => some fault
      | .ok _ => none) = some (.noMatch "fly") := by decide +kernel
  split at refused
  · rename_i fault failed
    exact failed.trans (congrArg Except.error (Option.some.inj refused))
  · cases refused

theorem uncompiled_ends_run_pair :
    EndsAt bareConfig ["f", "g", "-s", "s.py"] pairWorkspace false ["f"] (.noMatch "fly")
      pairPrepared := by
  obtain ⟨formats, directory, reads⟩ := pairWorkspace_reads
  have files : ["f", "g"] = ["f"] ++ "g" :: [] := rfl
  exact uncompiled_ends_run reads pairWorkspace_prepares files pairWorkspace_uncompiled

/-- A step body of the first file has been called when a command exits because its second file does
not compile. -/
theorem called_before_uncompiled :
    Uncompiled pairPrepared "g" (.noMatch "fly") ∧
    (ending (run bareConfig ["f", "g", "-s", "s.py"] pairWorkspace).1).1 = 1 ∧
    (run bareConfig ["f", "g", "-s", "s.py"] pairWorkspace).2.errors =
      "Error: " ++ Fault.message (.noMatch "fly") ++ "\n" ∧
    ∃ past ∈ commandPast bareConfig ["f", "g", "-s", "s.py"] pairWorkspace, CallsStep past := by
  exact ⟨pairWorkspace_uncompiled, by decide +kernel, by decide +kernel, by decide +kernel⟩

end Command

end FeatureRunner
