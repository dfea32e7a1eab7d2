import FeatureRunner.Proofs.Command.Uncompiled
import FeatureRunner.Proofs.Dispatcher.Changes

/-!
What a `run` command leaves behind, however it ends: an empty container, and the listeners that the
changes made by others would have left if no collector had ever been attached.

Main statement: `run_cleans_up`.
-/

namespace FeatureRunner
open FeatureRunner.World

namespace Command
open Work

/-! ## Work that has nothing to do with the subscriptions -/

/-- Some work changes neither the subscriptions nor what is left to do. -/
def Aloof {α : Type} (work : Work α) : Prop :=
  ∀ workspace, (work workspace).2.world.dispatcher = workspace.world.dispatcher ∧
    (work workspace).2.world.tasks = workspace.world.tasks ∧
    (work workspace).2.world.current = workspace.world.current

namespace Aloof

variable {α β : Type} {work : Work α}

theorem ofKeeps (keeps : Keeps work) : Aloof work := by
  intro workspace
  rw [(keeps workspace).1]
  exact ⟨rfl, rfl, rfl⟩

theorem echo (line : String) : Aloof (Work.echo line) :=
  fun _ => ⟨rfl, rfl, rfl⟩

theorem echoAll (lines : List String) : Aloof (Command.echoAll lines) := by
  intro workspace
  rw [echoAll_eq]
  exact ⟨rfl, rfl, rfl⟩

theorem bind {further : α → Work β} (first : Aloof work) (second : ∀ value, Aloof (further value)) :
    Aloof (work >>= further) := by
  intro workspace
  obtain ⟨dispatcher, tasks, current⟩ := first workspace
  rw [bind_eq]
  cases found : work workspace with
  | mk result mid =>
    rw [found] at dispatcher tasks current
    cases result with
    | error reason => exact ⟨dispatcher, tasks, current⟩
    | ok value =>
      obtain ⟨dispatcher', tasks', current'⟩ := second value mid
      exact ⟨dispatcher'.trans dispatcher, tasks'.trans tasks, current'.trans current⟩

end Aloof

theorem prepare_aloof (config : Config) (arguments : Arguments) : Aloof (prepare config arguments) := by
  refine .bind (.ofKeeps (stepPaths_keeps _ _)) fun paths => ?_
  refine .bind (.ofKeeps (loadSteps_keeps paths)) fun count => .bind (.echo _) fun _ => ?_
  exact fun _ => ⟨rfl, rfl, rfl⟩

theorem echoSummary_aloof (results : Results) : Aloof (echoSummary results) :=
  .bind (.echo _) fun _ => .bind (.echo _) fun _ => .bind (.echo _) fun _ => .bind (.echo _) fun _ =>
    .echo _

theorem writeReports_aloof (directory : Path) (results : Value) (formats : List Value) :
    Aloof (writeReports directory results formats) := by
  induction formats with
  | nil => exact .ofKeeps (.pure ())
  | cons format rest ih =>
    have writes (file : WrittenFile) : Aloof (Work.write file) := fun _ => ⟨rfl, rfl, rfl⟩
    exact .bind (.ofKeeps .get) fun _ => .bind (.ofKeeps (.ofExcept _)) fun file =>
      .bind (writes file) fun _ => .bind (.echo _) fun _ => ih

/-! ## The changes of the subscriptions that a command makes -/

section Changes

variable {α β : Type} {work : Work α} {further : α → Work β} {workspace : Workspace}
  {edits : List Edit}

theorem Aloof.edited (aloof : Aloof work) (discreet : workspace.world.Discreet) :
    workspace.world.Edited [] (work workspace).2.world := by
  obtain ⟨dispatcher, tasks, current⟩ := aloof workspace
  exact .still (discreet.congr tasks current) dispatcher

theorem onWorld_bind {change : World → World} (next : Unit → Work β) :
    (onWorld (fun world => (.ok (), change world)) >>= next) workspace =
      next () { workspace with world := change workspace.world } := rfl

/-- Work that is followed by work that is aloof. -/
theorem edited_bind {world : World} (ran : world.Edited edits (work workspace).2.world)
    (aloof : ∀ value, Aloof (further value)) :
    world.Edited edits ((work >>= further) workspace).2.world := by
  rw [bind_eq]
  cases found : work workspace with
  | mk result mid =>
    rw [found] at ran
    cases result with
    | error reason => exact ran
    | ok value => exact List.append_nil edits ▸ ran.trans ((aloof value).edited ran.discreet)

/-- A feature file that is run, or cannot be, changes the subscriptions as its suite asks for. -/
theorem runFile_edited (showTrace : Bool) (path : String) (discreet : workspace.world.Discreet) :
    workspace.world.Edited (filePast path workspace).edits
      (runFile showTrace path workspace).2.world := by
  have still : workspace.world.Edited [] workspace.world := .still discreet rfl
  have known : Work.registry workspace = (.ok workspace.registry, workspace) := rfl
  unfold filePast
  cases found : workspace.tree.read? (.ofText path) with
  | none =>
    rw [runFile, bind_eq, readText_eq, found]
    exact still
  | some text =>
    have read : readText path workspace = (.ok text, workspace) := by rw [readText_eq, found]
    rw [runFile, bind_of_ok read, bind_of_ok known]
    cases compiled : Suite.compile workspace.registry text (some path) with
    | error fault =>
      simp only [compiled]
      exact still
    | ok suite =>
      have chosen : Work.ofExcept (.ok suite) workspace = (.ok suite, workspace) := rfl
      simp only [compiled]
      have renewed : workspace.world.renewed.Discreet := discreet.congr rfl rfl
      have ran : workspace.world.Edited (workspace.world.renewed.loopPast suite.run).edits
          (workspace.world.renewed.runLoop suite.run).2 := by
        have begun : workspace.world.Edited [] workspace.world.renewed := .still renewed rfl
        exact begun.trans (.loop renewed suite.run_discreet)
      rw [bind_of_ok chosen, bind_of_ok (echo_eq _), onWorld_bind]
      refine edited_bind ran fun result => ?_
      refine .bind (fun _ => ⟨rfl, rfl, rfl⟩) fun _ => .bind (.echoAll _) fun _ => ?_
      split
      · exact .bind (.echo _) fun _ => .bind (.ofKeeps .get) fun _ => .bind (.echoAll _) fun _ =>
          .ofKeeps (.pure _)
      · exact .ofKeeps (.pure _)

theorem runFiles_edited (showTrace : Bool) (paths : List String) (discreet : workspace.world.Discreet) :
    workspace.world.Edited (filesRan showTrace paths workspace).edits
      (runFiles showTrace paths workspace).2.world := by
  induction paths generalizing workspace with
  | nil => exact .still discreet rfl
  | cons path rest ih =>
    have ran := runFile_edited showTrace path discreet
    rw [filesRan, runFiles, History.edits_append, bind_eq]
    cases found : runFile showTrace path workspace with
    | mk result mid =>
      rw [found] at ran
      cases result with
      | error reason => exact (List.append_nil _).symm ▸ ran
      | ok failed => exact ran.trans (edited_bind (ih ran.discreet) fun _ => .ofKeeps (.pure _))

variable {config : Config} {given : List String} {ready : Workspace} {arguments : Arguments}
  {formats : List Value} {directory : Path}

/-- Whatever comes of it, what `run` does with the collector attached changes the subscriptions as the
suites ask for that it runs. -/
theorem runBody_edited (reads : readRun config given workspace = (.ok (arguments, formats, directory), ready))
    (discreet : ready.watching.world.Discreet) :
    ready.watching.world.Edited (commandPast config given workspace).edits
      (runBody config arguments formats directory ready.watching).2.world := by
  have prepared := (prepare_aloof config arguments).edited discreet
  simp only [commandPast, reads]
  rw [runBody, bind_eq]
  cases found : prepare config arguments ready.watching with
  | mk result mid =>
    rw [found] at prepared
    cases result with
    | error reason => exact prepared
    | ok value =>
      refine prepared.trans (edited_bind (runFiles_edited _ _ prepared.discreet) fun failed => ?_)
      exact .bind (.ofKeeps .get) fun workspace => .bind (echoSummary_aloof _) fun _ =>
        .bind (writeReports_aloof _ _ _) fun _ => .ofKeeps (.pure _)

/-- However `run` ends, the end of it is to clean up behind what it has done with the collector
attached. -/
theorem world_of_run (reads : readRun config given workspace = (.ok (arguments, formats, directory), ready)) :
    (run config given workspace).2.world =
      (cleanUp (runBody config arguments formats directory ready.watching).2).world := by
  cases ran : runBody config arguments formats directory ready.watching with
  | mk result after =>
    cases result with
    | error reason =>
      rw [run_of_body reads ran]
      rcases reason with code | (fault | _)
      · rfl
      · simp only [quit]
        split <;> rfl
      · rfl
    | ok failed =>
      rw [run, bind_of_ok reads]
      dsimp only
      rw [onWorld_bind]
      change (((finishing (rescue (runBody config arguments formats directory) _) cleanUp) >>= _)
        ready.watching).2.world = _
      rw [bind_eq]
      simp only [finishing, rescue, ran]
      rfl

end Changes

/-! ## Cleaning up -/

/-- The container is empty, and the subscriptions of every event are, in their order, what some
changes alone make of those that there were. -/
structure CleanedUp (workspace : Workspace) (edits : List Edit) (after : Workspace) : Prop where
  helpers : after.world.container.helpers = []
  support : after.world.container.support = []
  listeners : ∀ event, after.world.dispatcher.listeners event =
    (Edit.applyAll edits workspace.world.dispatcher).listeners event
  free : ∀ event, handlers (after.world.dispatcher.listeners event) = []

/-- A command that gets past its options cleans up after itself, whatever it comes to: the listeners
are those that the changes made by its steps would have left without a collector, whose handlers are
gone. This holds of any changes that others make between attaching and detaching the collector, in any
world. -/
theorem run_cleans_up :
    (∀ (world : World) (edits : List Edit), (∀ event, handlers (world.dispatcher.listeners event) = []) →
      (∀ edit ∈ edits, edit.Scripted) → ∀ event,
        ({ world.attach with dispatcher := Edit.applyAll edits world.attach.dispatcher } :
          World).detach.dispatcher.listeners event =
            (Edit.applyAll edits world.dispatcher).listeners event) ∧
    ∀ (config : Config) (given : List String) (workspace ready : Workspace) (arguments : Arguments)
      (formats : List Value) (directory : Path),
      readRun config given workspace = (.ok (arguments, formats, directory), ready) →
      workspace.world.Discreet → (∀ event, handlers (workspace.world.dispatcher.listeners event) = []) →
        CleanedUp workspace (commandPast config given workspace).edits
            (run config given workspace).2 ∧
          (run config given workspace).2.world.Discreet := by
  constructor
  · intro world edits free scripted
    exact ((Overlaid.enlist free).applyAll scripted).withdraw
  · intro config given workspace ready arguments formats directory reads discreet free
    have kept : ready.world = workspace.world := by
      have kept := (readRun_keeps config given workspace).1
      rwa [reads] at kept
    have attached : ready.watching.world.Discreet := discreet.congr (by rw [← kept]; rfl) (by rw [← kept]; rfl)
    have edited := runBody_edited reads attached
    have enlisted : ready.watching.world.dispatcher = enlist collectedEvents workspace.world.dispatcher := by
      rw [← kept]
      rfl
    have overlaid : Overlaid collectedEvents _ _ := (Overlaid.enlist free).applyAll edited.scripted
    rw [← enlisted, ← edited.dispatcher] at overlaid
    refine ⟨⟨?_, ?_, ?_, ?_⟩, ?_⟩
    · rw [world_of_run reads]
      rfl
    · rw [world_of_run reads]
      rfl
    · rw [world_of_run reads]
      exact overlaid.withdraw
    · rw [world_of_run reads]
      exact fun event => (overlaid.withdraw event).symm ▸ overlaid.free event
    · rw [world_of_run reads]
      exact edited.discreet.congr rfl rfl

/-- A workspace in which somebody hears of tests that begin, with a step whose body lets somebody hear
of tests that pass and the other no more of those that begin. -/
def turningWorkspace : Workspace :=
  { wellWorkspace ["Feature: F", "Scenario: S", "Given rest"] with
    world := { World.initial ⟨0, none⟩ with
      dispatcher := Dispatcher.initial.on testStarted (.scripted "early") }
    stepFiles := [⟨["s.py"], [⟨"given", .text "rest", .script "turn" ⟨[], 0, true, []⟩ false false 0
      [.subscribe testPassed "late", .unsubscribe testStarted "early"], ""⟩], [], none⟩] }

theorem run_cleans_up_turning :
    CleanedUp turningWorkspace [.on testPassed (.scripted "late"), .off testStarted (.scripted "early")]
      (run bareConfig ["f", "-s", "s.py"] turningWorkspace).2 ∧
    (run bareConfig ["f", "-s", "s.py"] turningWorkspace).2.world.dispatcher.listeners testPassed =
      [.scripted "late"] ∧
    (run bareConfig ["f", "-s", "s.py"] turningWorkspace).2.world.dispatcher.listeners testStarted = [] ∧
    ({ turningWorkspace.world.attach with
        dispatcher := Edit.applyAll [.clear, .on testPassed (.scripted "late")]
          turningWorkspace.world.attach.dispatcher } : World).detach.dispatcher.listeners testPassed =
      [.scripted "late"] := by
  have reads := ok_of_isSome (⟨[], []⟩, [], ⟨"", []⟩)
    (show (readRun bareConfig ["f", "-s", "s.py"] turningWorkspace).1.toOption.isSome = true by
      decide +kernel)
  have discreet : turningWorkspace.world.Discreet := (discreet_initial ⟨0, none⟩).congr rfl rfl
  have free (event : String) : handlers (turningWorkspace.world.dispatcher.listeners event) = [] := by
    change handlers ((Dispatcher.initial.on testStarted (.scripted "early")).listeners event) = []
    rw [listeners_on]
    split <;> rfl
  have cleaned := (run_cleans_up.2 _ _ _ _ _ _ _ reads discreet free).1
  have edits : (commandPast bareConfig ["f", "-s", "s.py"] turningWorkspace).edits =
      [.on testPassed (.scripted "late"), .off testStarted (.scripted "early")] := by decide +kernel
  rw [edits] at cleaned
  exact ⟨cleaned, cleaned.listeners _, cleaned.listeners _,
    run_cleans_up.1 _ _ free (by simp [Edit.Scripted, Listener.collector?]) _⟩

end Command

end FeatureRunner
