import FeatureRunner.Proofs.Suite.Progress
import FeatureRunner.Proofs.Suite.Steps

/-!
Suites among bystanders. Whatever the steps do, a test emits its events in order and each once, runs
its steps up to the first that fails, and leaves a chain that has ended well or was abandoned.
-/

namespace FeatureRunner
open FeatureRunner.World

variable {task : Nat} {attached : Prop} {ledger : List Entry} {passed : History}
  {world next : World} {wanted : Outcome → Assertion}

/-! ## Steps -/

/-- The run calls the body of a step. -/
theorem meets_step (step : ResolvedStep) :
    (hosting task attached).Meets task wanted (Rest task attached ledger) step.run fun outcome passed world =>
      Uncancelled outcome ∧ ∃ start added last, Setting.Held task (fun passed world =>
        world.recorder.tail = last ∧ Draining task attached
          (ledger ++ (step.entry :: added.map .added ++ [.returned outcome last])) start added last
          passed world) passed world := by
  have admits (suspends : Bool) : stepping.AdmitsScripts .step suspends := stepping_scripts nofun
  have during : (hosting task attached).Lasts task stepping.allows fun passed world =>
      ∃ start added, Stepping task attached (ledger ++ [step.entry]) start added passed world :=
    .exists fun _ => Stepping.lasts
  refine .call (suits stepping_closed rfl rfl fun _ _ => trivial)
    (Callable.process_obeys _ (admits _) _)
    (fun _ => (Rest.lasts task attached ledger).kept fun _ _ => .inl) ?_ during ?_
  · intro passed world next process hosted rest orderly acts moved result hosted'
    exact ⟨_, [], rest.enters hosted orderly acts moved result hosted'⟩
  · rintro passed world next process outcome plain hosted ⟨start, added, stepping⟩ orderly acts moved
      result _
    refine ⟨plain, start, added, world.recorder.tail, by rw [result]; rfl, by rw [result]; rfl, ?_⟩
    have draining := stepping.leaves hosted orderly acts moved result
    simpa [ResolvedStep.entry] using draining

/-- Steps have been run. -/
def StepsDone (attached : Prop) (steps : List ResolvedStep) (entries : List Entry)
    (ending : Option Fault) : Assertion := fun passed world =>
  StepsRun (Cleared attached passed world) (passed.Sunk world) steps entries ending

theorem StepsDone.lasts {steps : List ResolvedStep} {entries : List Entry} {ending : Option Fault} :
    (hosting task attached).Lasts task (fun _ => True)
      (StepsDone attached steps entries ending) where
  step hosted ran orderly moved hosted' mine := ran.weaken
    (fun _ _ cleared => Cleared.lasts.step hosted cleared orderly moved hosted' mine)
    fun _ _ _ sunk => Sunk.lasts.step hosted sunk orderly moved hosted' mine
  between hosted ran between hosted' := ran.weaken
    (fun _ _ cleared => Cleared.lasts.between hosted cleared between hosted')
    fun _ _ _ sunk => Sunk.lasts.between hosted sunk between hosted'

/-- Steps have been run, to their end or up to a fault. -/
def Ran (task : Nat) (attached : Prop) (ledger : List Entry) (steps : List ResolvedStep)
    (result : Except Failure Unit) : Assertion := fun passed world => ∃ entries,
  StepsDone attached steps entries none passed world ∧
    result = .ok () ∧ Rest task attached (ledger ++ entries) passed world ∨
  ∃ fault, StepsDone attached steps entries (some fault) passed world ∧
    result = .error (.fault fault) ∧ Broken task attached (ledger ++ entries) passed world

theorem meets_runSteps (steps : List ResolvedStep) (ledger : List Entry) :
    (hosting task attached).Meets task wanted (Rest task attached ledger) (Test.runSteps steps)
      (Ran task attached ledger steps) := by
  induction steps generalizing ledger with
  | nil =>
    refine (Setting.Meets.pure () _).weaken (fun _ rest => ?_) fun _ here => here
    exact ⟨[], .inl ⟨.done, rfl, by simpa using rest⟩⟩
  | cons step rest ih =>
    refine .bind (meets_step step) (fun value => ?_) ?_
    · refine .and_before fun _ => .exists_before fun start => .exists_before fun added =>
        .exists_before fun last => ?_
      refine .bind meets_drain_step (fun _ => ?_) ?_
      · have further := (ih (ledger ++ (step.entry :: added.map .added ++
          [.returned (.ok value) last]))).frame (Cleared.lasts : (hosting task attached).Lasts task _
            fun passed world => Cleared attached passed world added last)
        refine further.weaken (fun _ here => ?_) fun _ here => ?_
        · rcases here with ⟨_, calm, cleared⟩ | ⟨_, ⟨⟩, _⟩
          exact ⟨cleared, calm⟩
        · obtain ⟨cleared, entries, ran⟩ := here
          refine ⟨step.entry :: added.map .added ++ .returned (.ok value) last :: entries, ?_⟩
          refine ran.imp (fun ran => ⟨.passes cleared ran.1, ran.2.1, ?_⟩) ?_
          · simpa using ran.2.2
          · rintro ⟨fault, ran, failed, broken⟩
            exact ⟨fault, .passes cleared ran, failed, by simpa using broken⟩
      · rintro failure passed world _ (⟨⟨⟩, _⟩ | ⟨fault, same, broken, sunk⟩)
        cases same
        exact ⟨_, .inr ⟨fault, .sinks sunk, rfl, broken⟩⟩
    · rintro failure passed world _ ⟨plain, start, added, last, _, _, draining⟩
      match failure with
      | .fault fault =>
        exact ⟨_, .inr ⟨fault, .raises, rfl, draining.entered, draining.aside, draining.bygone⟩⟩
      | .cancelled => exact absurd rfl plain

/-! ## Calls of the recorder -/

/-- The answer to a call of the recorder for the run. -/
theorem meets_callFor {before after : Assertion} (call : RecorderCall)
    (kept : (hosting task attached).Lasts task Act.Idle before)
    (answers : ∀ {passed world next}, Hosted task passed world → before passed world →
      world.Orderly attached → world.act? = some (.task task, .ask (.recorder .run call)) →
      world.step? = some next → (world.operate call).1 = .ok () ∧ after (passed ++ [world]) next) :
    (hosting task attached).Meets task wanted before (Recorder.callFor .run call)
      fun result passed world => result = .ok () ∧ after passed world := by
  have asks : (hosting task attached).Meets task wanted before
      (Program.ask (.recorder .run call)) fun result passed world =>
        result = .ok (.ok ()) ∧ after passed world := by
    refine .ask (fun _ => kept.kept fun _ _ => .inl) ?_
    intro passed world next process hosted here orderly acts moved _ _
    obtain ⟨answer, rest⟩ := answers hosted here orderly acts moved
    exact ⟨congrArg Except.ok answer, rest⟩
  refine .bind asks (fun answer => ?_) (by rintro _ _ _ _ ⟨⟨⟩, _⟩)
  refine .and_before fun same => ?_
  cases same
  exact (Setting.Meets.pure () _).weaken (fun _ rest => ⟨rfl, rest⟩) fun _ here => here

/-- What a call of the recorder enters and adds. -/
theorem quiet_of_call {role : Role} {call : RecorderCall} {owner : Owner}
    (acts : world.act? = some (owner, .ask (.recorder role call))) :
    world.entry? = none ∧ ∀ owner role name body, world.act? ≠ some (owner, .add role name body) := by
  simp [World.entry?, acts]

/-- Behind a fault the run begins a new chain. -/
theorem meets_recover : (hosting task attached).Meets task wanted (Broken task attached ledger)
    (Recorder.callFor .run .recover) fun result passed world =>
      result = .ok () ∧ Amid task attached ledger passed world := by
  refine meets_callFor .recover Broken.lasts ?_
  intro passed world next hosted broken orderly acts moved
  have session : next.recorder.session = world.recorder.session := by
    rw [(step?_stepped hosted.serial.wired moved).recorder, recorderAfter, acts]
    rcases recover_cases world with ⟨_, ⟨result, _⟩ | ⟨result, _⟩⟩ | ⟨_, _, _, _, result⟩
    all_goals simp only [operate, result]
  have tail : next.recorder.tail = world.recover.2.recorder.tail := by
    rw [(step?_stepped hosted.serial.wired moved).recorder, recorderAfter, acts]
    rfl
  obtain ⟨silent, unadded⟩ := quiet_of_call acts
  refine ⟨?_, ?_, broken.aside.step hosted orderly moved fun _ _ _ _ adds =>
    absurd adds (unadded _ _ _ _), fun number behind => ?_,
    broken.bygone.step hosted moved fun _ => session⟩
  · change world.recover.1 = _
    unfold World.recover
    split
    · rfl
    · rw [hosted.looping]
      split <;> rfl
  · rw [History.ledger_append, silent, broken.ledger]
    exact List.append_nil _
  · rw [tail] at behind
    rcases recover_cases world with ⟨_, ⟨_, still⟩ | ⟨same, _⟩⟩ |
      ⟨previous, before, unsettled, looping, result⟩
    · rw [hosted.looping] at still
      cases still
    · rw [same] at behind
      cases behind
    · rw [result, Option.some.injEq] at behind
      refine .inr ⟨⟨world.tasks.length, world.recorder.session, some previous, none⟩, ?_, behind, rfl⟩
      rw [History.links_append]
      exact List.mem_append_right _ (by simp [World.link?, acts, before, unsettled, looping])

/-- At rest all tasks that a run has added have ended, unless somebody else detached the chain. -/
theorem Rest.settled (rest : Rest task attached ledger passed world)
    (hosted : Hosted task passed world) (still : attached) :
    ∀ link ∈ passed.links, task < link.number → (world.outcome? link.number).isSome := by
  intro link member late
  by_cases mine : link.session = world.recorder.session
  · exact hosted.serial.settled_of_follows hosted.serial.tail (rest.closed still) link member mine
      (hosted.serial.inside link member)
  · exact rest.bygone still link member late mine

theorem meets_start : (hosting task attached).Meets task wanted (Rest task attached ledger)
    (Recorder.callFor .run .startUnlessRunning) fun result passed world =>
      result = .ok () ∧ Rest task attached ledger passed world := by
  refine meets_callFor .startUnlessRunning (Rest.lasts task attached ledger) ?_
  intro passed world next hosted rest orderly acts moved
  obtain ⟨silent, unadded⟩ := quiet_of_call acts
  have recorder : next.recorder = world.recorder.startUnlessRunning := by
    rw [(step?_stepped hosted.serial.wired moved).recorder, recorderAfter, acts]
    rfl
  have tail (number : Nat) (behind : next.recorder.tail = some number) :
      world.recorder.tail = some number := by
    rw [recorder, Recorder.startUnlessRunning] at behind
    split at behind
    · exact behind
    · cases behind
  refine ⟨rfl, ⟨?_, rest.aside.step hosted orderly moved fun _ _ _ _ adds =>
    absurd adds (unadded _ _ _ _), fun number behind => ?_, ?_⟩, fun still number behind => ?_⟩
  · rw [History.ledger_append, silent, rest.ledger]
    exact List.append_nil _
  · exact (rest.sound number (tail number behind)).step hosted moved
  · intro still link member late _
    rw [History.links_append, World.link?, acts] at member
    exact isSome_of_step hosted moved (rest.settled hosted still link (by simpa using member) late)
  · exact isSome_of_step hosted moved (rest.closed still number (tail number behind))

/-! ## Tests -/

/-- A test emits its last two events and ends. -/
theorem meets_closing {fact : Assertion} (ledger : List Entry) (name event : String)
    (args : List Value) (test : Test) (outcome : Outcome) (lasts : (hosting task attached).Lasts task (fun _ => True) fact) :
    (hosting task attached).Meets task wanted
      (fun passed world => fact passed world ∧ Amid task attached ledger passed world)
      (do Test.fire name event args
          test.conclude
          Program.ofOutcome outcome) fun result passed world => fact passed world ∧
        result = outcome ∧ Rest task attached (ledger ++ [.emitted event args,
          .emitted testFinished [.test test.card]]) passed world := by
  refine .frame ?_ lasts
  refine .bind (meets_fire name event args) (fun _ => ?_) (by rintro _ _ _ _ ⟨⟨⟩, _⟩)
  refine .and_before fun _ => ?_
  refine .bind (meets_conclude test) (fun _ => ?_) (by rintro _ _ _ _ ⟨⟨⟩, _⟩)
  exact (Setting.Meets.ofOutcome outcome _).weaken (fun _ here => ⟨rfl, here.2⟩) fun _ here => here

/-- The steps of a test, and its end if none fails. -/
theorem meets_passing (test : Test) :
    (hosting task attached).Meets task wanted (Rest task attached ledger)
      (do Test.runSteps test.steps
          Test.fire "fire test.passed" testPassed [.test test.card]
          test.conclude
          return Value.null) fun result passed world => ∃ entries,
        StepsDone attached test.steps entries none passed world ∧ result = .ok .null ∧
          Rest task attached (ledger ++ entries ++ [.emitted testPassed [.test test.card],
            .emitted testFinished [.test test.card]]) passed world ∨
        ∃ fault, StepsDone attached test.steps entries (some fault) passed world ∧
          result = .error (.fault fault) ∧ Broken task attached (ledger ++ entries) passed world := by
  refine .bind (meets_runSteps test.steps ledger) (fun _ => ?_) ?_
  · refine .exists_before fun entries => ?_
    refine (meets_closing (ledger ++ entries) "fire test.passed" testPassed [.test test.card] test
      (.ok .null) StepsDone.lasts).weaken (fun _ here => ?_) fun _ here => ⟨entries, .inl here⟩
    rcases here with ⟨ran, _, rest⟩ | ⟨_, _, ⟨⟩, _⟩
    exact ⟨ran, rest.toAmid⟩
  · rintro failure passed world _ ⟨entries, ⟨_, ⟨⟩, _⟩ | ⟨fault, ran, same, broken⟩⟩
    cases same
    exact ⟨entries, .inr ⟨fault, ran, rfl, broken⟩⟩

/-- A failed test is reported behind the failed chain. -/
theorem meets_failing (ledger : List Entry) (test : Test) (entries : List Entry) (fault : Fault) :
    (hosting task attached).Meets task wanted
      (fun passed world => StepsDone attached test.steps entries (some fault) passed world ∧
        Broken task attached ledger passed world)
      (do Recorder.callFor .run .recover
          Test.fire "fire test.failed" testFailed [.test test.card, .fault fault]
          test.conclude
          Program.throw fault) fun (result : Outcome) passed world =>
        StepsDone attached test.steps entries (some fault) passed world ∧
          result = .error (.fault fault) ∧ Rest task attached (ledger ++
            [.emitted testFailed [.test test.card, .fault fault],
              .emitted testFinished [.test test.card]]) passed world := by
  refine .bind (Setting.Meets.frame meets_recover StepsDone.lasts) (fun _ => ?_)
    (by rintro _ _ _ _ ⟨_, ⟨⟩, _⟩)
  exact (meets_closing ledger "fire test.failed" testFailed [.test test.card, .fault fault] test
    (.error (.fault fault)) StepsDone.lasts).weaken (fun _ here => ⟨here.1, here.2.2⟩)
      fun _ here => here

/-- A test has been run. -/
def TestDone (attached : Prop) (test : Test) (entries : List Entry) (ending : Option Fault) :
    Assertion := fun passed world =>
  TestRuns (Cleared attached passed world) (passed.Sunk world) test entries ending

theorem meets_test (test : Test) : (hosting task attached).Meets task wanted (Rest task attached ledger)
    test.run fun result passed world => ∃ entries ending,
      TestDone attached test entries ending passed world ∧ result = Test.outcome ending ∧
        Rest task attached (ledger ++ entries) passed world := by
  refine .bind meets_start (fun _ => ?_) (by rintro _ _ _ _ ⟨⟨⟩, _⟩)
  refine .and_before fun _ => ?_
  refine .bind (meets_emit _ _) (fun _ => ?_) (by rintro _ _ _ _ ⟨⟨⟩, _⟩)
  refine .and_before fun _ => ?_
  cases pending : test.pending with
  | true =>
    refine (meets_closing (ledger ++ [.emitted testStarted [.test test.card]]) "skip test"
      testSkipped [.test test.card] test (.ok .null) (.const True)).weaken
        (fun _ rest => ⟨trivial, rest.toAmid⟩) fun _ here => ?_
    refine ⟨_, none, .skipped pending, here.2.1, ?_⟩
    simpa using here.2.2
  | false =>
    refine .rescue (meets_passing test) (fun fault => ?_) ?_ ?_
    · refine .exists_before fun entries => ?_
      refine (meets_failing (ledger ++ [.emitted testStarted [.test test.card]] ++ entries) test
        entries fault).weaken (fun _ here => ?_) fun _ here => ?_
      · rcases here with ⟨_, ⟨⟩, _⟩ | ⟨fault, ran, ⟨⟩, broken⟩
        exact ⟨ran, broken⟩
      · refine ⟨_, some fault, .failed pending here.1, here.2.1, ?_⟩
        simpa using here.2.2
    · rintro value passed world _ ⟨entries, ⟨ran, same, rest⟩ | ⟨_, _, ⟨⟩, _⟩⟩
      refine ⟨_, none, .passed pending ran, same, ?_⟩
      simpa using rest
    · rintro passed world _ ⟨entries, ⟨_, ⟨⟩, _⟩ | ⟨fault, _, ⟨⟩, _⟩⟩

theorem TestDone.lasts {test : Test} {entries : List Entry} {ending : Option Fault} :
    (hosting task attached).Lasts task (fun _ => True) (TestDone attached test entries ending) where
  step hosted ran orderly moved hosted' mine := ran.weaken
    (fun _ _ cleared => Cleared.lasts.step hosted cleared orderly moved hosted' mine)
    fun _ _ _ sunk => Sunk.lasts.step hosted sunk orderly moved hosted' mine
  between hosted ran between hosted' := ran.weaken
    (fun _ _ cleared => Cleared.lasts.between hosted cleared between hosted')
    fun _ _ _ sunk => Sunk.lasts.between hosted sunk between hosted'

/-! ## Suites -/

/-- Tests have been run in order. -/
def TestsDone (attached : Prop) (tests : List Test) (entries : List Entry)
    (endings : List (Option Fault)) : Assertion := fun passed world =>
  TestsRun (Cleared attached passed world) (passed.Sunk world) tests entries endings

theorem TestsDone.lasts {tests : List Test} {entries : List Entry} {endings : List (Option Fault)} :
    (hosting task attached).Lasts task (fun _ => True)
      (TestsDone attached tests entries endings) where
  step hosted ran orderly moved hosted' mine := ran.weaken
    (fun _ _ cleared => Cleared.lasts.step hosted cleared orderly moved hosted' mine)
    fun _ _ _ sunk => Sunk.lasts.step hosted sunk orderly moved hosted' mine
  between hosted ran between hosted' := ran.weaken
    (fun _ _ cleared => Cleared.lasts.between hosted cleared between hosted')
    fun _ _ _ sunk => Sunk.lasts.between hosted sunk between hosted'

/-- The run of a test in a suite answers its fault. -/
theorem meets_runTest (test : Test) : (hosting task attached).Meets task wanted (Rest task attached ledger)
    (Suite.runTest test) fun result passed world => ∃ entries ending,
      result = .ok (ending.elim .null .fault) ∧
        TestDone attached test entries ending passed world ∧
        Rest task attached (ledger ++ entries) passed world := by
  have ran : (hosting task attached).Meets task wanted (Rest task attached ledger)
      (do let _ ← test.run
          return Value.null) fun result passed world => ∃ entries ending,
        TestDone attached test entries ending passed world ∧ result = Test.outcome ending ∧
          Rest task attached (ledger ++ entries) passed world := by
    refine .bind (meets_test test) (fun _ => ?_) ?_
    · refine (Setting.Meets.pure Value.null _).weaken (fun _ here => ?_) fun _ here => here
      obtain ⟨entries, ending, done, same, rest⟩ := here
      cases ending with
      | none => exact ⟨entries, none, done, rfl, rest⟩
      | some fault => cases same
    · rintro failure passed world _ ⟨entries, ending, done, same, rest⟩
      cases ending with
      | none => cases same
      | some fault => exact ⟨entries, some fault, done, same, rest⟩
  refine .rescue ran (fun fault => ?_) ?_ ?_
  · refine (Setting.Meets.pure (Value.fault fault) _).weaken (fun _ here => ?_) fun _ here => here
    obtain ⟨entries, ending, done, same, rest⟩ := here
    cases ending with
    | none => cases same
    | some other =>
      cases same
      exact ⟨entries, some fault, rfl, done, rest⟩
  · rintro value passed world _ ⟨entries, ending, done, same, rest⟩
    cases ending with
    | none =>
      cases same
      exact ⟨entries, none, rfl, done, rest⟩
    | some fault => cases same
  · rintro passed world _ ⟨entries, ending, _, same, _⟩
    cases ending <;> cases same

theorem meets_runTests (tests : List Test) (ledger : List Entry) :
    (hosting task attached).Meets task wanted (Rest task attached ledger) (Suite.runTests tests)
      fun result passed world => ∃ entries endings,
        result = .ok (List.zipWith Test.report tests endings) ∧
          TestsDone attached tests entries endings passed world ∧
          Rest task attached (ledger ++ entries) passed world := by
  induction tests generalizing ledger with
  | nil =>
    refine (Setting.Meets.pure _ _).weaken (fun _ rest => ?_) fun _ here => here
    exact ⟨[], [], rfl, .done, by simpa using rest⟩
  | cons test tests ih =>
    refine .bind (meets_runTest test) (fun answer => ?_) ?_
    · refine .exists_before fun first => .exists_before fun ending => ?_
      have known : (hosting task attached).Lasts task (fun _ => True)
          (TestDone attached test first ending) := TestDone.lasts
      have further := (ih (ledger ++ first)).frame known
      refine .and_before fun same => ?_
      cases same
      refine .bind further (fun answers => ?_) (by rintro _ _ _ _ ⟨_, _, _, ⟨⟩, _⟩)
      refine (Setting.Meets.pure _ _).weaken (fun _ here => ?_) fun _ here => here
      obtain ⟨done, entries, endings, same, ran, rest⟩ := here
      cases same
      exact ⟨first ++ entries, ending :: endings, rfl, .next done ran, by simpa using rest⟩
    · rintro failure passed world _ ⟨_, _, ⟨⟩, _⟩

/-- A suite has been run. -/
def SuiteDone (task : Nat) (attached : Prop) (ledger : List Entry) (suite : Suite)
    (outcome : Outcome) : Assertion := fun passed world => ∃ entries endings,
  outcome = .ok (.list (List.zipWith Test.report suite.tests endings)) ∧
    TestsDone attached suite.tests entries endings passed world ∧
    Rest task attached (ledger ++ (.emitted suiteBefore [.suite suite.card] :: entries ++
      [.emitted suiteAfter [.suite suite.card]])) passed world

theorem meets_suite (suite : Suite) : (hosting task attached).Meets task wanted (Rest task attached ledger)
    suite.run (SuiteDone task attached ledger suite) := by
  refine .bind (meets_emit _ _) (fun _ => ?_) (by rintro _ _ _ _ ⟨⟨⟩, _⟩)
  refine .and_before fun _ => ?_
  refine .bind (meets_runTests suite.tests _) (fun answers => ?_)
    (by rintro _ _ _ _ ⟨_, _, ⟨⟩, _⟩)
  refine .exists_before fun entries => .exists_before fun endings => .and_before fun same => ?_
  cases same
  have known : (hosting task attached).Lasts task (fun _ => True)
      (TestsDone attached suite.tests entries endings) := TestsDone.lasts
  refine .bind (.frame (meets_emit _ _) known) (fun _ => ?_) (by rintro _ _ _ _ ⟨_, ⟨⟩, _⟩)
  refine (Setting.Meets.pure _ _).weaken (fun _ here => ?_) fun _ here => here
  exact ⟨entries, endings, rfl, here.1, by simpa using here.2.2⟩

/-- However a run goes on from where a suite is begun, the suite has been run when its task has
ended. -/
theorem suite_safe {suite : Suite} (hosted : Hosted task passed world)
    (rest : Rest task attached ledger passed world)
    (left : world.process? (.task task) = some suite.run.toProcess) :
    (hosting task attached).Safe task (SuiteDone task attached ledger suite) passed world := by
  refine (meets_suite suite).safe (fun outcome => ?_) (fun _ done => done) hosted rest left
  exact .exists fun entries => .exists fun endings => (Setting.Lasts.const _).and
    ((TestsDone.lasts.mono fun _ _ => trivial).and ((Rest.lasts _ _ _).mono fun _ => .inl))

/-! ## A suite in a running loop -/

/-- Where a suite may be run: the loop runs, the chain has ended well, and whoever else is at work
is a bystander. -/
structure World.Readied (world : World) : Prop where
  looping : world.looping = true
  settled : ∀ number, world.recorder.tail = some number →
    ∃ value, world.outcome? number = some (.ok value)
  others : ∀ owner process, world.process? owner = some process →
    process.Obeys (bystander owner.place)

/-- Where a suite may be run after all that has been run before: the chain may be one that was
abandoned. It has ended if nobody else detached it. -/
structure Vacant (attached : Prop) (passed : History) (world : World) : Prop where
  serial : Serial passed world
  looping : world.looping = true
  others : Aside world []
  sound : ∀ number, world.recorder.tail = some number → Sound passed world number
  closed : attached → ∀ number, world.recorder.tail = some number → (world.outcome? number).isSome

theorem World.Readied.vacant {clock : Calendar.Moment} {before : History} {start : World}
    (readied : start.Readied) (earlier : Run quietly (World.initial clock) before start) :
    Vacant attached before start where
  serial := .of_run earlier
  looping := readied.looping
  others owner process _ left := readied.others owner process left
  sound number behind := .inl (readied.settled number behind)
  closed _ number behind := by
    obtain ⟨value, ended⟩ := readied.settled number behind
    rw [ended]
    rfl

section Spawned

variable {before : History} {start : World} {process : Process}
  (vacant : Vacant attached before start)
include vacant

theorem hosted_of_spawn (plain : process.Obeys mute) :
    Hosted start.tasks.length before (start.spawn process).1 where
  serial := vacant.serial.between (.outside (.spawns plain))
  looping := vacant.looping
  inside := by simp [World.spawn]
  apart link member := Nat.ne_of_lt (vacant.serial.inside link member)

theorem process?_of_suite :
    (start.spawn process).1.process? (.task start.tasks.length) = some process := by
  rw [process?_spawn vacant.serial.wired, if_pos rfl]

/-- The others in the world that a suite is spawned into. -/
theorem process?_of_spawn {owner : Owner} {after : Process}
    (left : (start.spawn process).1.process? owner = some after) :
    owner = .task start.tasks.length ∧ after = process ∨
      owner ≠ .task start.tasks.length ∧ start.process? owner = some after := by
  rw [process?_spawn vacant.serial.wired] at left
  split at left
  · rename_i mine
    exact .inl ⟨mine, (Option.some.inj left).symm⟩
  · rename_i apart
    exact .inr ⟨apart, left⟩

theorem rest_of_spawn :
    Rest start.tasks.length attached before.ledger before (start.spawn process).1 where
  ledger := rfl
  aside owner after apart left := by
    rcases process?_of_spawn vacant left with ⟨mine, _⟩ | ⟨_, left⟩
    · exact absurd mine (apart _ (by simp))
    · exact vacant.others owner after (by simp) left
  sound number behind := (vacant.sound number behind).imp_left fun ⟨value, ended⟩ =>
    ⟨value, (outcome?_spawn process number).trans ended⟩
  bygone _ link member late _ := absurd (vacant.serial.inside link member) (Nat.lt_asymm late)
  closed still number behind := by
    rw [outcome?_spawn]
    exact vacant.closed still number behind

theorem attended_of_spawn (leads : process.Obeys (leading start.tasks.length)) :
    Attended start.tasks.length (start.spawn process).1 where
  among owner after apart left := by
    rcases process?_of_spawn vacant left with ⟨mine, _⟩ | ⟨_, left⟩
    · exact absurd mine (apart _ (by simp))
    · refine (vacant.others owner after (by simp) left).less_modest (fun _ _ => trivial)
        fun number below => ⟨below, Nat.ne_of_lt (Nat.lt_of_lt_of_le below ?_)⟩
      cases owner with
      | task number => exact Nat.le_of_lt (process?_lt vacant.serial.wired left)
      | caller => exact Nat.zero_le _
  leads after left := by
    rcases process?_of_spawn vacant left with ⟨_, rfl⟩ | ⟨apart, _⟩
    · exact leads
    · exact absurd rfl apart

end Spawned

/-- A suite that is run beside bystanders, in whatever way its steps go about. If no listener fails
and only runs and steps add tasks, it does what it should and answers how each test ended; and it
does not get stuck. -/
theorem suite_lifecycle {clock : Calendar.Moment} {before passed : History} {start world : World}
    (suite : Suite) (earlier : Run quietly (World.initial clock) before start)
    (readied : start.Readied) (run : Run besides (start.spawn suite.run.toProcess).1 passed world)
    (granted : ∀ past ∈ passed, ∀ owner act, past.act? = some (owner, act) → act.Granted) :
    (∀ outcome, world.outcome? start.tasks.length = some outcome →
      SuiteRuns (History.Drained (∀ past ∈ passed, ¬past.Detaches) (before ++ passed) world)
        (History.Sunk (before ++ passed) world) suite passed.ledger outcome) ∧
    (world.Still → (world.outcome? start.tasks.length).isSome) := by
  have vacant : Vacant (∀ past ∈ passed, ¬past.Detaches) before start := readied.vacant earlier
  have hosted := hosted_of_spawn vacant (suite.run_obeys mute_runs).toProcess
  have course : (hosting start.tasks.length (∀ past ∈ passed, ¬past.Detaches)).Course before
      (start.spawn suite.run.toProcess).1 (before ++ passed) world :=
    .of_run before run fun past member =>
      ⟨granted past member, fun attached => attached past member⟩
  have hosted' : Hosted start.tasks.length (before ++ passed) world := course.holds hosted
  constructor
  · intro outcome ended
    obtain ⟨entries, endings, same, ran, rest⟩ := suite_safe hosted (rest_of_spawn vacant)
      (process?_of_suite vacant) _ _ course outcome ended
    refine ⟨entries, endings, ?_, ?_, same⟩
    · exact ran.weaken (fun _ _ cleared => cleared.drained hosted'.serial) fun _ _ _ sunk => sunk
    · have split := rest.ledger
      rw [History.ledger, List.filterMap_append] at split
      exact List.append_cancel_left split
  · intro still
    have attended := course.lasts Attended.lasts hosted
      (attended_of_spawn vacant (suite.run_obeys leading_runs).toProcess)
    exact attended.settled hosted' still.idle still.ready still.soon still.ungated _ hosted'.inside

/-- A step that adds a task that raises, and gives way. -/
def sinkingStep : ResolvedStep :=
  let raises : Callable := .script "raises" ⟨[], 0, true, []⟩ false false 0 [.raise .value none]
  let adds : Callable :=
    .script "adds" ⟨[], 0, true, []⟩ true false 0 [.add "raises" (some raises), .yield 1]
  ⟨"given", "work", ⟨0, ⟨"given", .placeholders ⟨"work", .strict, []⟩, adds, ""⟩, []⟩⟩

/-- A pending test, and one whose first step sinks. -/
def sinkingSuite : Suite :=
  ⟨"suite", "", [], [⟨"pending", [], [], true⟩, ⟨"sinking", [sinkingStep, sinkingStep], [], false⟩]⟩

theorem suite_lifecycle_sinking : ∃ passed world outcome,
    Run besides ({ World.initial ⟨0, none⟩ with looping := true }.spawn
      sinkingSuite.run.toProcess).1 passed world ∧
    world.outcome? 0 = some outcome ∧ passed.ledger.length = 11 ∧
    SuiteRuns (History.Drained (∀ past ∈ passed, ¬past.Detaches) passed world)
      (History.Sunk passed world) sinkingSuite passed.ledger outcome := by
  let start : World := { World.initial ⟨0, none⟩ with looping := true }
  have earlier : Run quietly (World.initial ⟨0, none⟩) [] start :=
    Run.refl.between (.outside (.alters rfl))
  have readied : start.Readied :=
    ⟨rfl, nofun, fun owner process left => by cases owner <;> cases left⟩
  let played := World.play 400 (start.spawn sinkingSuite.run.toProcess).1
  have granted : ∀ past ∈ played.1, ∀ owner act, past.act? = some (owner, act) → act.Granted := by
    have checked : played.1.all fun past => past.act?.all fun found =>
        decide found.2.Granted := by decide +kernel
    intro past member owner act acts
    have known := List.all_eq_true.1 checked past member
    rw [acts] at known
    exact of_decide_eq_true known
  have runs := suite_lifecycle sinkingSuite earlier readied (.play _ _) granted
  have ended : (played.2.outcome? 0).isSome := by decide +kernel
  obtain ⟨outcome, ended⟩ := Option.isSome_iff_exists.1 ended
  exact ⟨_, _, outcome, .play _ _, ended, by decide +kernel, runs.1 outcome ended⟩

end FeatureRunner
