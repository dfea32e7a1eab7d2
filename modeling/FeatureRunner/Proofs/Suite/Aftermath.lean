import FeatureRunner.Proofs.Suite.Closing

/-!
What has ended when a test has. A test takes the chain for the last time behind all that it adds,
and then does nothing but wait for it. So whatever was added before that has ended with the test;
what is added later, while the chain is drained, may outlive it.

Main statement: `settled_with_test`.
-/

namespace FeatureRunner
open FeatureRunner.World

/-- A task took the chain in a world, and has done nothing since but wait for it. -/
def World.History.Parted (host : Nat) (passed early : History) (taking : World) : Prop :=
  taking.act? = some (.task host, .ask .tail) ∧ ∃ late, passed = early ++ taking :: late ∧
    ∀ past ∈ late, ∀ act, past.act? = some (.task host, act) → act.Waits ∨ act.Looks

/-- What had been added then is covered by a task. -/
def Parting (host task : Nat) : Assertion := fun passed _ =>
  ∃ early taking, passed.Parted host early taking ∧ Covers passed early taking task

/-- What had been added then has ended. -/
def Rested (host : Nat) : Assertion := fun passed world =>
  ∃ early taking, passed.Parted host early taking ∧ Settled early taking world

/-- A test has rested at its end, unless it has failed at its beginning. -/
def Parts (host : Nat) (outcome : Outcome) : Assertion := fun passed world =>
  ((∃ fault, outcome = .error (.fault fault)) ∧ Noted host [.begins] passed world) ∨
    Rested host passed world

section Rests

variable {host task : Nat} {wanted : Outcome → Assertion} {passed early : History}
  {world next taking : World}

theorem World.History.Parted.append (parted : passed.Parted host early taking)
    (mine : ∀ act, world.act? = some (.task host, act) → act.Waits ∨ act.Looks) :
    History.Parted host (passed ++ [world]) early taking := by
  obtain ⟨takes, late, rfl, quiet⟩ := parted
  refine ⟨takes, late ++ [world], by simp, fun past member act acts => ?_⟩
  rcases List.mem_append.1 member with old | last
  · exact quiet past old act acts
  · obtain rfl := List.mem_singleton.1 last
    exact mine act acts

theorem World.History.Parted.links (parted : passed.Parted host early taking) :
    ∀ link ∈ early.links, link ∈ passed.links := by
  obtain ⟨_, late, rfl, _⟩ := parted
  exact fun link member => History.mem_links_left _ member

theorem Parting.lasts : (looped host).Lasts host (fun act => act.Waits ∨ act.Looks)
    (Parting host task) where
  step _ here _ _ _ mine := by
    obtain ⟨early, taking, parted, covers⟩ := here
    exact ⟨early, taking, parted.append mine, covers.append _⟩
  between _ here _ _ := here

theorem Rested.lasts : (looped host).Lasts host Act.Waits (Rested host) where
  step here rested _ moved _ mine := by
    obtain ⟨early, taking, parted, settled⟩ := rested
    refine ⟨early, taking, parted.append fun act acts => .inl (mine act acts), ?_⟩
    exact settled.mono fun _ _ ended =>
      (step?_stepped here.serial.wired moved).settled here.serial.wired ended
  between here rested between here' := by
    obtain ⟨early, taking, parted, settled⟩ := rested
    refine ⟨early, taking, parted, settled.mono fun number outcome ended => ?_⟩
    exact (Setting.Lasts.outcome number outcome : (looped host).Lasts host (fun _ => True) _).between
      here ended between here'

theorem Parts.lasts (outcome : Outcome) :
    (looped host).Lasts host Act.Waits (Parts host outcome) :=
  .or (.and (.const _) (Noted.lasts noted_waits)) Rested.lasts

/-- When the chain has ended that covers what had been added, all of that has. -/
theorem Parting.rested {outcome : Outcome} (here : Looped host passed world)
    (parting : Parting host task passed world) (ended : world.outcome? task = some outcome) :
    Rested host passed world := by
  obtain ⟨early, taking, parted, covers⟩ := parting
  exact ⟨early, taking, parted, covers.settled here.serial parted.links ended⟩

/-- The chain is taken. -/
theorem meets_taking : (looped host).Meets host wanted (fun _ _ => True) (Program.ask .tail)
    fun result passed world => ∃ tail, result = .ok tail ∧
      tail.elim (Rested host passed world) (Parting host · passed world) := by
  refine .ask (fun _ => (Setting.Lasts.const True).kept fun _ _ waits => waits) ?_
  intro passed world next process here _ _ acts moved _ here'
  have parted : History.Parted host (passed ++ [world]) passed world := ⟨acts, [], rfl, by simp⟩
  refine ⟨world.recorder.tail, rfl, ?_⟩
  rcases chain : world.recorder.tail with _ | task
  · refine ⟨passed, world, parted, (here.serial.settled_of_free chain).mono fun _ _ ended => ?_⟩
    exact (step?_stepped here.serial.wired moved).settled here.serial.wired ended
  · exact ⟨passed, world, parted, (here.serial.covers chain).append world⟩

/-- The chain is drained. -/
theorem meets_drain_rested : (looped host).Meets host wanted (fun _ _ => True) Recorder.drainNow
    fun result passed world => Uncancelled result ∧ Rested host passed world := by
  refine .bind meets_taking (fun tail => ?_) (by rintro _ _ _ _ ⟨_, ⟨⟩, _⟩)
  refine .exists_before fun known => .and_before fun same => ?_
  cases same
  cases tail with
  | none =>
    exact (Setting.Meets.pure () _).weaken (fun _ rested => ⟨uncancelled_ok _, rested⟩)
      fun _ here => here
  | some task =>
    have lasts : (looped host).Lasts host (fun act => act.Waits ∨ act = .ask (.outcome task))
        (Parting host task) := by
      refine Parting.lasts.mono ?_
      rintro act (waits | rfl)
      · exact .inl waits
      · exact .inr trivial
    have drains : (looped host).Meets host wanted (Parting host task) (Recorder.settled task)
        fun outcome passed world =>
          Parting host task passed world ∧ world.outcome? task = some outcome := by
      refine .settled lasts.spans fun here parting => ?_
      obtain ⟨_, _, _, anchor, member, same, _⟩ := parting
      exact same ▸ here.serial.inside anchor member
    refine .bind drains (fun value => ?_) fun here known => ?_
    · exact (Setting.Meets.pure () _).weaken (fun here known =>
        ⟨uncancelled_ok _, known.1.rested here known.2⟩) fun _ here => here
    · exact ⟨(here.serial.uncancelled.plain known.2).error, known.1.rested here known.2⟩

theorem meets_of_noted {α : Type} {program : Program α} {after : Except Failure α → Assertion}
    (meets : ∀ passages, (looped host).Meets host wanted (Noted host passages) program after) :
    (looped host).Meets host wanted (fun _ _ => True) program after :=
  (Setting.Meets.exists_before meets).weaken (fun _ _ => ⟨_, rfl⟩) fun _ here => here

/-- The end of a test, behind which it rests. -/
theorem meets_end_rested (name event : String) (args : List Value) (test : Test) (outcome : Outcome)
    (plain : Uncancelled outcome) :
    (looped host).Meets host wanted (fun _ _ => True) (do
        Test.fire name event args
        test.conclude
        Program.ofOutcome outcome) fun result passed world =>
      Uncancelled result ∧ Rested host passed world := by
  have fires (name event : String) (args : List Value) : (looped host).Meets host wanted
      (fun _ _ => True) (Test.fire name event args) fun result _ _ => result = .ok () ∧ True :=
    meets_of_noted fun _ => (noted_fire name event args).weaken (fun _ here => here)
      fun _ known => ⟨known.1, trivial⟩
  refine .bind (fires name event args) (fun _ => .and_before fun _ => ?_)
    (by rintro _ _ _ _ ⟨⟨⟩, _⟩)
  have concludes : (looped host).Meets host wanted (fun _ _ => True) test.conclude
      fun result passed world => Uncancelled result ∧ Rested host passed world :=
    .bind (fires _ _ _) (fun _ => .and_before fun _ => meets_drain_rested)
      (by rintro _ _ _ _ ⟨⟨⟩, _⟩)
  refine .bind concludes (fun _ => ?_) fun _ known => ⟨known.1.error, known.2⟩
  exact (Setting.Meets.ofOutcome outcome _).weaken (fun _ known => ⟨plain, known.2⟩)
    fun _ here => here

theorem meets_passing_rested (test : Test) :
    (looped host).Meets host wanted (Begun host []) (do
        Test.runSteps test.steps
        Test.fire "fire test.passed" testPassed [.test test.card]
        test.conclude
        return Value.null) fun result passed world => Uncancelled result ∧
      ∀ value, result = .ok value → Rested host passed world := by
  refine .bind (meets_runSteps_drained test.steps) (fun _ => ?_) fun _ known =>
    ⟨known.1.error, by rintro _ ⟨⟩⟩
  exact (meets_end_rested _ _ _ test (.ok .null) (uncancelled_ok _)).weaken
    (fun _ _ => trivial) fun _ known => ⟨known.1, fun _ _ => known.2⟩

theorem meets_failing_rested (test : Test) (fault : Fault) :
    (looped host).Meets host wanted (fun _ _ => True) (do
        Recorder.callFor .run .recover
        Test.fire "fire test.failed" testFailed [.test test.card, .fault fault]
        test.conclude
        (Program.throw fault : Program Value)) fun result passed world =>
      Uncancelled result ∧ Rested host passed world := by
  have recovers : (looped host).Meets host wanted (fun _ _ => True)
      (Recorder.callFor .run .recover) fun result _ _ => result = .ok () ∧ True :=
    meets_of_noted fun _ => (noted_callFor .recover).weaken (fun _ here => here)
      fun _ known => ⟨known.1, trivial⟩
  refine .bind recovers (fun _ => .and_before fun _ => ?_) (by rintro _ _ _ _ ⟨⟨⟩, _⟩)
  exact meets_end_rested _ _ _ test (.error (.fault fault)) (uncancelled_fault fault)

theorem meets_test_rested (test : Test) :
    (looped host).Meets host wanted (Noted host []) test.run (Parts host) := by
  refine .bind (noted_callFor _) (fun _ => .and_before fun _ => ?_) (by rintro _ _ _ _ ⟨⟨⟩, _⟩)
  refine .bind (meets_begin _) (fun _ => .and_before fun _ => ?_) ?_
  · split
    · exact (meets_end_rested _ _ _ test (.ok .null) (uncancelled_ok _)).weaken
        (fun _ _ => trivial) fun _ known => .inr known.2
    · refine .rescue ((meets_passing_rested test).weaken (fun _ noted => ⟨[], noted⟩)
        fun _ here => here) (fun fault => ?_) (fun _ known => .inr (known.2 _ rfl))
        fun _ known => absurd rfl known.1
      exact (meets_failing_rested test fault).weaken (fun _ _ => trivial)
        fun _ known => .inr known.2
  · rintro failure passed world _ ⟨plain, noted⟩
    match failure with
    | .fault fault => exact .inl ⟨⟨fault, rfl⟩, noted⟩
    | .cancelled => exact absurd rfl plain

end Rests

/-- Whatever steps, helpers and listeners do, and whoever else is at work: when a test has ended,
every task of the session has that had been added before the test took the chain for the last time,
and behind that the test adds none itself. A test takes no chain if a listener of its beginning
fails. -/
theorem settled_with_test {clock : Calendar.Moment} {before passed : History} {start world : World}
    (test : Test) (earlier : Run quietly (World.initial clock) before start)
    (looping : start.looping = true) (run : Run leisurely (start.spawn test.run.toProcess).1 passed world)
    {outcome : Outcome} (ended : world.outcome? start.tasks.length = some outcome) :
    Parts start.tasks.length outcome (before ++ passed) world := by
  have serial : Serial before start := .of_run earlier
  have here : Looped start.tasks.length before (start.spawn test.run.toProcess).1 :=
    ⟨serial.between (.outside (.spawns (test.run_obeys mute_runs).toProcess)), looping,
      by simp [World.spawn]⟩
  have unnoted : History.passages start.tasks.length before = [] := by
    refine List.filterMap_eq_nil_iff.2 fun past member => passage?_eq_none fun act acts => ?_
    exact absurd (earlier.owner_lt member acts) (Nat.lt_irrefl _)
  have left : (start.spawn test.run.toProcess).1.process? (.task start.tasks.length) =
      some test.run.toProcess := by
    rw [process?_spawn serial.wired, if_pos rfl]
  have safe : (looped start.tasks.length).Safe start.tasks.length (Parts start.tasks.length)
      before (start.spawn test.run.toProcess).1 :=
    (meets_test_rested test).safe Parts.lasts (fun _ parts => parts) here unnoted left
  exact safe _ _ (.of_run before run fun _ _ => trivial) outcome ended

/-- A loop with a listener that is told of finished tests, and adds a task that gives way. -/
def leavingWorld : World :=
  let inner : Callable := .script "inner" ⟨[], 0, true, []⟩ true false 0 [.yield 5]
  { World.initial ⟨0, none⟩ with
    looping := true
    dispatcher := Dispatcher.initial.on testFinished (.scripted "adds")
    listeners :=
      [("adds", .script "adds" ⟨[], 0, true, []⟩ false false 0 [.add "left" (some inner)])] }

theorem settled_with_test_leaving : ∃ passed world outcome,
    Run leisurely (leavingWorld.spawn (Test.run ⟨"empty", [], [], false⟩).toProcess).1 passed world ∧
    world.outcome? 0 = some outcome ∧ Parts 0 outcome passed world := by
  have earlier : Run quietly (World.initial ⟨0, none⟩) [] leavingWorld :=
    Run.refl.between (.outside (.alters rfl))
  let played :=
    World.play 60 (leavingWorld.spawn (Test.run ⟨"empty", [], [], false⟩).toProcess).1
  have ended : (played.2.outcome? 0).isSome := by decide +kernel
  obtain ⟨outcome, ended⟩ := Option.isSome_iff_exists.1 ended
  exact ⟨_, _, outcome, .play _ _, ended, settled_with_test _ earlier rfl (.play _ _) ended⟩

/-- A test ends well, and what a listener of its end has added has not ended. -/
theorem unsettled_after_test : ∃ passed world value,
    Run leisurely (leavingWorld.spawn (Test.run ⟨"empty", [], [], false⟩).toProcess).1 passed world ∧
    world.outcome? 0 = some (.ok value) ∧
    History.added passed 1 = [(1, "fire test.passed"), (2, "finish test"), (3, "left")] ∧
    world.outcome? 3 = none := by
  let played :=
    World.play 35 (leavingWorld.spawn (Test.run ⟨"empty", [], [], false⟩).toProcess).1
  have ended : ((played.2.outcome? 0).bind Except.toOption).isSome := by decide +kernel
  have pending : (played.2.outcome? 3).isNone := by decide +kernel
  obtain ⟨value, ended⟩ := Option.isSome_iff_exists.1 ended
  obtain ⟨outcome, ended, known⟩ := Option.bind_eq_some_iff.1 ended
  cases outcome with
  | error failure => cases known
  | ok found =>
    exact ⟨_, _, found, .play _ _, ended, by decide +kernel, Option.isNone_iff_eq_none.1 pending⟩

end FeatureRunner
