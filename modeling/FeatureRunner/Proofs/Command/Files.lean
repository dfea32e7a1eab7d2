import FeatureRunner.Proofs.Command.Work
import FeatureRunner.Proofs.Results.Conduct
import FeatureRunner.Proofs.World.Loop

/-!
Feature files that a command runs one after the other, each in a session and a loop of its own. At
the end of a loop all tasks have ended, so the next file finds nothing left of the last one but the
results, which grow by a feature with each file.
-/

namespace FeatureRunner
open FeatureRunner.World

/-! ## Between loops -/

/-- A new session is begun. -/
def World.renewed (world : World) : World :=
  { world with recorder := world.recorder.start }

/-- Where a new session may begin: nothing is owed to the collector and all tasks have ended. -/
structure World.Parked (passed : History) (world : World) : Prop where
  vacant : Vacant True passed { world.renewed with looping := true }
  paid : world.Paid
  finished : world.Finished

/-- A world in which nothing has been run. -/
structure World.Fresh (world : World) : Prop where
  recorder : world.recorder = .initial
  tasks : world.tasks = []
  current : world.current = none
  ready : world.ready = []
  soon : world.soon = []

section Loop

variable {passed : History} {world next : World}

theorem World.Paid.congr (paid : world.Paid) (tasks : next.tasks = world.tasks)
    (current : next.current = world.current) (dispatcher : next.dispatcher = world.dispatcher) :
    next.Paid where
  heeds owner process left := paid.heeds owner process (process?_congr tasks current ▸ left)
  watched event := by
    rw [dispatcher]
    exact paid.watched event

theorem World.Fresh.parked (fresh : world.Fresh) (watched : world.Watched) : world.Parked [] := by
  have nobody (owner : Owner) (process : Process) : world.process? owner ≠ some process := by
    cases owner <;> simp [process?, fresh.current, asleep?, standing, state?, fresh.tasks]
  have finished : world.Finished := by simp [World.Finished, fresh.tasks]
  have serial : Serial [] world := by
    refine (Serial.initial world.clock).between (.outside (.alters ?_))
    cases world
    obtain ⟨rfl, rfl, rfl, rfl, rfl⟩ := fresh
    rfl
  refine ⟨⟨?_, rfl, fun owner process _ left => ?_, by rintro _ ⟨⟩, by rintro _ _ ⟨⟩⟩, ⟨?_, watched⟩, finished⟩
  · exact serial.renew finished rfl rfl rfl fresh.soon (Nat.le_succ _) rfl
  · exact absurd left (nobody owner process)
  · exact fun owner process left => absurd left (nobody owner process)

/-- When a suite has been run in a loop all tasks have ended. -/
theorem finished_of_loop {suite : Suite} {start : World} {value : Value}
    (vacant : Vacant True passed { start with looping := true }) (finished : start.Finished)
    (orderly : ∀ past ∈ start.loopPast suite.run, past.Orderly True)
    (ended : (start.loopEnd suite.run).outcome? start.tasks.length = some (.ok value)) :
    (start.loopEnd suite.run).Finished := by
  have run : Run besides (start.loopStart suite.run) (start.loopPast suite.run)
      (start.loopEnd suite.run) := .loop start suite.run
  have hosted := hosted_of_spawn vacant (suite.run_obeys mute_runs).toProcess
  have course : (hosting start.tasks.length True).Course passed (start.loopStart suite.run)
      (passed ++ start.loopPast suite.run) (start.loopEnd suite.run) := .of_run passed run orderly
  obtain ⟨_, _, _, _, rest⟩ := suite_done vacant run orderly ended
  have settled := rest.settled (course.holds hosted) trivial
  intro number inside
  rcases Nat.lt_trichotomy number start.tasks.length with old | rfl | new
  · obtain ⟨outcome, done⟩ := Option.isSome_iff_exists.1 (finished number old)
    have kept : (hosting start.tasks.length True).Lasts start.tasks.length (fun _ => True)
        fun _ world => world.outcome? number = some outcome := .outcome number outcome
    rw [course.lasts kept hosted ((outcome?_spawn _ number).trans done)]
    rfl
  · rw [ended]
    rfl
  · have last : (start.loopStart suite.run).tasks.length = start.tasks.length + 1 := by
      simp [World.loopStart, World.spawn]
    rcases hosted.serial.linked (.loop start suite.run) number inside with old | linked
    · change number < (start.loopStart suite.run).tasks.length at old
      omega
    · obtain ⟨link, member, rfl⟩ := linked
      exact settled link member new

/-- A suite that has been run in a new session and a loop of its own adds a feature to the results,
which reports on it, and leaves nothing to do. -/
theorem loop_reported {suite : Suite} {value : Value} (parked : world.Parked passed)
    (orderly : ∀ past ∈ world.renewed.loopPast suite.run, past.Orderly True)
    (genuine : ∀ past ∈ world.renewed.loopPast suite.run, past.Genuine)
    (answers : world.renewed.runLoop suite.run = (.ok value, next)) : ∃ endings feature,
    value = .list (List.zipWith Test.report suite.tests endings) ∧
      FeatureResult.Reports feature suite endings ∧
      next.results.features = world.results.features ++ [feature] ∧
      { next with recorder := next.recorder.stop }.Parked
        (passed ++ world.renewed.loopPast suite.run) := by
  generalize renewed : world.renewed = start at *
  have results : start.results = world.results := renewed ▸ rfl
  have vacant : Vacant True passed { start with looping := true } := renewed ▸ parked.vacant
  have finished : start.Finished := renewed ▸ parked.finished
  have paid : { start with looping := true }.Paid := renewed ▸ parked.paid.congr rfl rfl rfl
  have run : Run attending (start.loopStart suite.run) (start.loopPast suite.run)
      (start.loopEnd suite.run) := .loop start suite.run
  have ended : (start.loopEnd suite.run).outcome? start.tasks.length = some (.ok value) :=
    outcome?_of_runLoop (by rw [answers])
  have finished : (start.loopEnd suite.run).Finished :=
    finished_of_loop vacant finished orderly ended
  obtain ⟨endings, feature, same, reports, features⟩ :=
    suite_reported vacant paid run orderly genuine ended
  obtain ⟨vacant, paid⟩ := suite_leaves vacant paid run orderly genuine ended
  have tasks := tasks_of_cancelAll finished
  obtain rfl : { (start.loopEnd suite.run).cancelAll with looping := false } = next :=
    congrArg Prod.snd answers
  have left (owner : Owner) (process : Process)
      (known : (start.loopEnd suite.run).cancelAll.process? owner = some process) :
      (start.loopEnd suite.run).process? owner = some process := by
    rwa [process?_congr tasks rfl] at known
  refine ⟨endings, feature, Except.ok.inj same, reports, results ▸ features, ⟨?_, rfl, ?_, nofun,
    fun _ => nofun⟩, paid.congr tasks rfl rfl, ?_⟩
  · exact vacant.serial.renew finished tasks rfl rfl rfl (Nat.le_succ _) rfl
  · exact fun owner process apart known => vacant.others owner process apart (left owner process known)
  · intro number inside
    have same : (start.loopEnd suite.run).cancelAll.outcome? number =
        (start.loopEnd suite.run).outcome? number := by simp only [outcome?, state?, tasks]
    exact same ▸ finished number (congrArg List.length tasks ▸ inside)

end Loop

/-! ## Files -/

namespace Command
open Work

/-- The lines on a feature file: its title, how its tests ended, and the trace. -/
def fileLines (showTrace : Bool) (trace : List String) (suite : Suite)
    (endings : List (Option Fault)) : List String :=
  ("\nFeature: " ++ suite.title) ::
    (suite.tests.zip endings).flatMap (fun (test, ending) => outcomeLines test ending) ++
    if showTrace then "\nTrace:" :: trace.map ("  " ++ ·) else []

/-- The worlds that steps are taken from while a feature file is run. -/
def filePast (path : String) (workspace : Workspace) : History :=
  match workspace.tree.read? (.ofText path) with
  | some text =>
    match Suite.compile workspace.registry text (some path) with
    | .ok suite => workspace.world.renewed.loopPast suite.run
    | .error _ => []
  | none => []

/-- The worlds that steps are taken from while feature files are run. -/
def filesPast (showTrace : Bool) : List String → Workspace → History
  | [], _ => []
  | path :: rest, workspace =>
    filePast path workspace ++ filesPast showTrace rest (runFile showTrace path workspace).2

section Files

variable {workspace after : Workspace} {showTrace : Bool} {failed : Nat} {passed : History}

/-- What running a file comes to, when it does not fail. -/
theorem runFile_ok {path : String} (ran : runFile showTrace path workspace = (.ok failed, after)) :
    ∃ suite value world, filePast path workspace = workspace.world.renewed.loopPast suite.run ∧
      workspace.world.renewed.runLoop suite.run = (.ok value, world) ∧
      after = { workspace with
        world := { world with recorder := world.recorder.stop }
        output := workspace.output ++
          printed (fileLines showTrace world.recorder.trace suite (Suite.faults value)) } := by
  unfold runFile at ran
  obtain ⟨text, _, read, ran⟩ := bind_ok ran
  obtain ⟨found, rfl⟩ := readText_ok read
  obtain ⟨_, _, known, ran⟩ := bind_ok ran
  cases known
  obtain ⟨suite, _, taken, ran⟩ := bind_ok ran
  obtain ⟨compiled, rfl⟩ := ofExcept_ok taken
  obtain ⟨_, _, titled, ran⟩ := bind_ok ran
  cases echo_eq ("\nFeature: " ++ suite.title) ▸ titled
  obtain ⟨_, _, begun, ran⟩ := bind_ok ran
  obtain ⟨-, rfl⟩ := onWorld_ok begun
  obtain ⟨value, _, looped, ran⟩ := bind_ok ran
  obtain ⟨answers, rfl⟩ := onWorld_ok looped
  obtain ⟨_, _, stopped, ran⟩ := bind_ok ran
  obtain ⟨-, rfl⟩ := onWorld_ok stopped
  obtain ⟨_, _, told, ran⟩ := bind_ok ran
  rw [echoAll_eq] at told
  cases told
  refine ⟨suite, value, (workspace.world.renewed.runLoop suite.run).2, ?_, Prod.ext answers rfl, ?_⟩
  · simp [filePast, found, compiled]
  · cases showTrace with
    | false =>
      cases ran
      simp [fileLines, String.append_assoc, World.renewed]
    | true =>
      rw [if_pos rfl] at ran
      obtain ⟨_, _, headed, ran⟩ := bind_ok ran
      rw [echo_eq] at headed
      cases headed
      obtain ⟨_, _, got, ran⟩ := bind_ok ran
      cases got
      obtain ⟨_, _, traced, ran⟩ := bind_ok ran
      rw [echoAll_eq] at traced
      cases traced
      cases ran
      simp [fileLines, String.append_assoc, World.renewed, Recorder.stop]

/-- How the tests of a suite have ended can be read off what its run answers. -/
theorem faults_report {tests : List Test} {endings : List (Option Fault)}
    (length : endings.length = tests.length) :
    Suite.faults (.list (List.zipWith Test.report tests endings)) = endings := by
  induction tests generalizing endings with
  | nil => simpa [Suite.faults, eq_comm] using length
  | cons test tests ih =>
    match endings with
    | [] => cases length
    | ending :: endings =>
      have rest := ih (Nat.succ.inj length)
      simp only [Suite.faults] at rest ⊢
      cases ending <;> simp [Test.report, rest]

/-- Blocks of lines, each on a suite and how its tests have ended. -/
abbrev Blocks (showTrace : Bool) (blocks : List (List String)) (told : SuitesRan) : Prop :=
  List.Forall₂ (fun block (suite, endings) => ∃ trace, block = fileLines showTrace trace suite endings)
    blocks told

theorem file_reported {path : String} (parked : workspace.world.Parked passed)
    (ran : runFile showTrace path workspace = (.ok failed, after))
    (orderly : ∀ past ∈ filePast path workspace, past.Orderly True)
    (genuine : ∀ past ∈ filePast path workspace, past.Genuine) :
    after.world.Parked (passed ++ filePast path workspace) ∧ ∃ suite endings feature trace,
      FeatureResult.Reports feature suite endings ∧
      after.world.results.features = workspace.world.results.features ++ [feature] ∧
      after.output = workspace.output ++ printed (fileLines showTrace trace suite endings) := by
  obtain ⟨suite, value, world, past, answers, rfl⟩ := runFile_ok ran
  rw [past] at orderly genuine ⊢
  obtain ⟨endings, feature, rfl, reports, features, parked⟩ :=
    loop_reported parked orderly genuine answers
  refine ⟨parked, suite, endings, feature, world.recorder.trace, reports, features, ?_⟩
  rw [faults_report reports.length]

/-- Files that have been run add a feature each to the results, and what is printed on a file tells
what its feature reports. -/
theorem files_reported {paths : List String} (parked : workspace.world.Parked passed)
    (ran : runFiles showTrace paths workspace = (.ok failed, after))
    (orderly : ∀ past ∈ filesPast showTrace paths workspace, past.Orderly True)
    (genuine : ∀ past ∈ filesPast showTrace paths workspace, past.Genuine) :
    ∃ told features blocks, Results.Report features told ∧ Blocks showTrace blocks told ∧
      after.world.results.features = workspace.world.results.features ++ features ∧
      after.output = workspace.output ++ printed blocks.flatten := by
  induction paths generalizing workspace passed failed with
  | nil =>
    cases ran
    exact ⟨[], [], [], .nil, .nil, by simp, by simp⟩
  | cons path rest ih =>
    unfold runFiles at ran
    obtain ⟨first, mid, file, ran⟩ := bind_ok ran
    obtain ⟨others, last, files, ran⟩ := bind_ok ran
    cases ran
    have mid_eq : (runFile showTrace path workspace).2 = mid := congrArg Prod.snd file
    simp only [filesPast, mid_eq, List.mem_append] at orderly genuine
    obtain ⟨parked, suite, endings, feature, trace, reports, features, output⟩ :=
      file_reported parked file (fun past member => orderly past (.inl member)) fun past member =>
        genuine past (.inl member)
    obtain ⟨told, more, blocks, reported, block, results, text⟩ :=
      ih parked files (fun past member => orderly past (.inr member)) fun past member =>
        genuine past (.inr member)
    refine ⟨(suite, endings) :: told, feature :: more, _ :: blocks, .cons reports reported,
      .cons ⟨trace, rfl⟩ block, ?_, ?_⟩
    · rw [results, features, List.append_assoc, List.singleton_append]
    · rw [text, output, List.flatten_cons, printed_append, String.append_assoc]

end Files

end Command

end FeatureRunner
