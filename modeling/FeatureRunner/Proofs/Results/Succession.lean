import FeatureRunner.Proofs.Results.Attendance
import FeatureRunner.Proofs.World.Loop

/-!
Suites and single tests that are run one after the other while the collector attends. A test waits
before it ends for the tasks that tell of its end, so the collector hears of nothing out of its
period: whatever steps, helpers and listeners do, it has heard of each suite from its beginning to
its end, and of each test in between or outside every suite.

Main statement: `Succession.follows`.
-/

namespace FeatureRunner
open FeatureRunner.World

/-! ## Emissions of the host -/

section Host

variable {host task : Nat} {wanted : Outcome → Assertion} {tellers : List Nat}
  {period period' : Period} {passed : History} {world next : World}

/-- What a host runs is in a period, and some tasks are left that tell of the end of a test. -/
abbrev During (host : Nat) (tellers : List Nat) (period : Period) : Assertion :=
  fun _ world => world.Amidst host tellers period

theorem reserved_of_waits {act : Act} (waits : act.Waits) : reserved.allows act := by
  cases act with
  | ask | call | add => exact waits.elim
  | _ => trivial

theorem meets_reserved {α : Type} {good : Except Failure α → Prop} {program : Program α}
    (ensures : program.Ensures reserved good) :
    (attended host).Meets host wanted (During host tellers period) program
      fun result passed world => good result ∧ During host tellers period passed world :=
  .lawful reserved_suits Amidst.lasts ensures

theorem kept_asking {request : Request} (branch : request.Answer → Process) :
    (attended host).Kept host (During host tellers period) (.ask request branch) :=
  Amidst.lasts.kept fun _ acts waits => by cases acts; exact waits.elim

/-- The collector is told by the host itself. -/
theorem meets_collect {kind : CollectorEvent} {args : List Value}
    (hears : period.Hears (kind, args) period') :
    (attended host).Meets host wanted (During host [] period) (Program.ask (.collect kind args))
      fun result passed world =>
        (∃ answer, result = .ok answer) ∧ During host [] period' passed world := by
  refine .ask kept_asking ?_
  intro passed world next process here amidst punctual acts moved _ _
  refine ⟨⟨_, rfl⟩, ?_, absurd rfl, ?_⟩
  · refine amidst.quiet.step here punctual moved (fun _ => id) fun _ _ _ _ adds => ?_
    cases acts.symm.trans adds
  · have told : next.results = (world.results.collect world.clock.text kind args).2 := by
      rw [(step?_stepped here.wired moved).results]
      simp [heard?, acts, World.now]
    rw [told]
    exact (amidst.follows.hears punctual.dated hears).later (punctual.onward next moved)

theorem meets_notify_hears {kind : CollectorEvent} {args : List Value}
    (hears : period.Hears (kind, args) period') :
    (attended host).Meets host wanted (During host [] period)
      (Subscriber.notify args (.collector kind)) fun result passed world =>
        (∃ value, result = .ok value) ∧ During host [] period' passed world := by
  change (attended host).Meets host wanted _ (Program.ask (.collect kind args) >>= fun answer =>
    Program.within .listener (Program.ofExcept answer >>= fun _ => pure .null)) _
  refine .bind (meets_collect hears) (fun answer => .and_before fun _ => ?_)
    (by rintro _ _ _ _ ⟨⟨_, ⟨⟩⟩, _⟩)
  have told : (Program.ofExcept answer >>= fun _ => pure .null : Program Value).Obeys reserved :=
    .bind (.ofExcept answer) fun _ => .pure _
  exact meets_reserved (.within told (fun _ => trivial) fun _ _ known => known)

theorem owed_cons (args : List Value) (subscriber : Subscriber) (rest : List Subscriber) :
    owed args (subscriber :: rest) =
      (subscriber.collector?.map (·, args)).toList ++ owed args rest := by
  cases known : subscriber.collector? <;> simp [owed, known]

/-- The subscribers of an event are told, the collector among them once. -/
theorem meets_notifyAll_hears {kind : CollectorEvent} {args : List Value}
    (subscribers : List Subscriber) (owes : owed args subscribers = [(kind, args)])
    (hears : period.Hears (kind, args) period') :
    (attended host).Meets host wanted (During host [] period) (notifyAll args subscribers)
      fun result passed world => result = .ok () ∧ During host [] period' passed world := by
  have unfailing (outcome : Outcome) (known : reserved.assumes (.leave .listener outcome)) :
      ∃ value, outcome = .ok value := known
  induction subscribers with
  | nil => cases owes
  | cons subscriber rest ih =>
    rw [owed_cons] at owes
    cases subscriber with
    | callable callable =>
      obtain ⟨inner, same, obeys⟩ :=
        @notify_within reserved sparing_listeners args (.callable callable) nofun
      refine .bind (same ▸ meets_reserved (.within obeys (fun _ => trivial)
        fun outcome _ known => unfailing outcome known)) (fun _ => .and_before fun _ => ih owes)
        (by rintro _ _ _ _ ⟨⟨_, ⟨⟩⟩, _⟩)
    | collector other =>
      obtain ⟨rfl, none⟩ : other = kind ∧ owed args rest = [] := by
        simpa [Subscriber.collector?] using owes
      refine .bind (meets_notify_hears hears) (fun _ => .and_before fun _ => ?_)
        (by rintro _ _ _ _ ⟨⟨_, ⟨⟩⟩, _⟩)
      refine meets_reserved (notifyAll_ensures sparing_listeners unfailing args rest ?_)
      intro kind member
      have owes : (kind, args) ∈ owed args rest :=
        List.mem_map.2 ⟨kind, List.mem_filterMap.2 ⟨_, member, rfl⟩, rfl⟩
      rw [none] at owes
      cases owes

/-- The host emits an event of the collector. -/
theorem meets_emission {event : String} {kind : CollectorEvent} {args : List Value}
    (known : collectorEvent? event = some kind) (hears : period.Hears (kind, args) period') :
    (attended host).Meets host wanted (During host [] period) (emitFor .run event args)
      fun result passed world => result = .ok () ∧ During host [] period' passed world := by
  have asks : (attended host).Meets host wanted (During host [] period)
      (Program.ask (.subscribers .run event args)) fun result passed world =>
        ∃ subscribers, result = .ok subscribers ∧ owed args subscribers = [(kind, args)] ∧
          During host [] period passed world := by
    refine .ask kept_asking ?_
    intro passed world next process here amidst punctual acts moved _ _
    refine ⟨_, rfl, ?_, ?_, absurd rfl, ?_⟩
    · rw [Accounted.owed_of_subscribers here.watched, known]
      rfl
    · refine amidst.quiet.step here punctual moved (fun _ => id) fun _ _ _ _ adds => ?_
      cases acts.symm.trans adds
    · have same : next.results = world.results := by
        rw [(step?_stepped here.wired moved).results]
        simp [heard?, acts]
      rw [same]
      exact amidst.follows.later (punctual.onward next moved)
  refine .bind asks (fun subscribers => ?_) (by rintro _ _ _ _ ⟨_, ⟨⟩, _⟩)
  refine .exists_before fun found => .and_before fun same => .and_before fun owes => ?_
  cases same
  exact meets_notifyAll_hears subscribers owes hears

end Host

/-! ## The end of a test -/

/-- Tasks belong to the chain of the present session. -/
def InChain (tellers : List Nat) (passed : History) (world : World) : Prop :=
  ∀ number ∈ tellers, ∃ link ∈ passed.links,
    link.number = number ∧ link.session = world.recorder.session

/-- A test is about to end, and what tells of its end belongs to the chain. -/
def Telling (host : Nat) (period : Period) : Assertion := fun passed world =>
  ∃ tellers, world.Amidst host tellers period ∧ InChain tellers passed world

/-- What tells of the end of a test has ended when a task of the chain has. -/
def Covered (host task : Nat) (period : Period) : Assertion := fun passed world =>
  ∃ tellers early taking, world.Amidst host tellers period ∧ InChain tellers early taking ∧
    (∀ link ∈ early.links, link ∈ passed.links) ∧ Covers passed early taking task

section Ends

variable {host task : Nat} {wanted : Outcome → Assertion} {before : Assertion}
  {period period' : Period} {passed : History} {world next : World}

theorem InChain.settled {tellers : List Nat} {returning : World}
    (chained : InChain tellers passed returning) (settled : Settled passed returning world) :
    ∀ number ∈ tellers, (world.outcome? number).isSome := by
  intro number member
  obtain ⟨link, inside, rfl, mine⟩ := chained number member
  exact settled link inside mine

theorem Telling.between (telling : Telling host period passed world) (here : Watching host passed world)
    (between : world.Between unobtrusively next) : Telling host period passed next := by
  obtain ⟨tellers, amidst, chained⟩ := telling
  refine ⟨tellers, amidst.between here between, ?_⟩
  have recorder : next.recorder = world.recorder := (between.mono And.left).recorder
  rwa [InChain, recorder]

/-- A task of the chain is added that tells of the end of a test. -/
theorem Telling.fire (telling : Telling host period passed world) (here : Watching host passed world)
    (testing : period.Testing) (punctual : world.Punctual) {name event : String} {args : List Value}
    (closing : ∃ kind, collectorEvent? event = some kind ∧ kind.Closing)
    (acts : world.act? = some (.task host, .add .run name (announcement event args)))
    (moved : world.step? = some next) : Telling host period (passed ++ [world]) next := by
  obtain ⟨tellers, amidst, chained⟩ := telling
  have stepped := step?_stepped here.wired moved
  refine ⟨world.tasks.length :: tellers, ⟨?_, fun _ => testing, ?_⟩, ?_⟩
  · refine amidst.quiet.step here punctual moved (fun _ => List.mem_cons_of_mem _) ?_
    intro owner role name' body adds
    cases acts.symm.trans adds
    exact .inr ⟨List.mem_cons_self,
      announcement_obeys sparing_listeners fun _ => closing⟩
  · have same : next.results = world.results := by
      rw [stepped.results]
      simp [heard?, acts]
    rw [same]
    exact amidst.follows.later (punctual.onward next moved)
  · have session : next.recorder.session = world.recorder.session := by
      rw [stepped.recorder]
      simp [recorderAfter, acts, World.addTask, here.looping, World.spawn]
    have made : world.link? = some ⟨world.tasks.length, world.recorder.session,
        world.recorder.tail, some (name, announcement event args)⟩ := by
      simp [World.link?, acts, here.looping]
    rw [InChain, session, History.links_append, made]
    intro number member
    rcases List.mem_cons.1 member with rfl | old
    · exact ⟨_, List.mem_append_right _ List.mem_cons_self, rfl, rfl⟩
    · obtain ⟨link, inside, same, mine⟩ := chained number old
      exact ⟨link, List.mem_append_left _ inside, same, mine⟩

theorem meets_fire_telling {name event : String} {args : List Value}
    (kept : ∀ branch, (attended host).Kept host before
      (.add .run name (announcement event args) branch))
    (telling : ∀ {passed world}, before passed world → Telling host period passed world)
    (testing : period.Testing)
    (closing : ∃ kind, collectorEvent? event = some kind ∧ kind.Closing) :
    (attended host).Meets host wanted before (Test.fire name event args)
      fun result passed world => result = .ok () ∧ Setting.Held host (Telling host period) passed world := by
  have adds : (attended host).Meets host wanted before (Program.addFor .run name (do
      emitFor .run event args
      return .null)) fun result passed world =>
        (∃ number, result = .ok number) ∧ Setting.Held host (Telling host period) passed world := by
    refine .addFor kept ?_
    intro passed world next process here at' punctual acts moved result _
    refine ⟨?_, ?_, (telling at').fire here testing punctual closing acts moved⟩
    · simp [World.addTask, here.looping, Except.mapError]
    · rw [result]
      rfl
  refine .bind adds (fun _ => .and_before fun _ => ?_) (by rintro _ _ _ _ ⟨⟨_, ⟨⟩⟩, _⟩)
  exact (Setting.Meets.pure () _).weaken (fun _ held => ⟨rfl, held⟩) fun _ here => here

theorem kept_telling {process : Process} {act : Act} (acts : process.act? = some act)
    (active : ¬act.Waits) :
    (attended host).Kept host (Setting.Held host (Telling host period)) process :=
  .held acts active fun here telling between _ => telling.between here between

/-- The chain is taken. -/
theorem meets_take : (attended host).Meets host wanted (Setting.Held host (Telling host period))
    (Program.ask .tail) fun result passed world => ∃ tail, result = .ok tail ∧
      tail.elim (During host [] period passed world) (Covered host · period passed world) := by
  refine .ask (fun _ => kept_telling rfl id) ?_
  rintro passed world next process here ⟨-, tellers, amidst, chained⟩ punctual acts moved _ here'
  refine ⟨world.recorder.tail, rfl, ?_⟩
  have mine (act : Act) (acts' : world.act? = some (.task host, act)) : reserved.allows act := by
    cases acts.symm.trans acts'
    trivial
  rcases chain : world.recorder.tail with _ | task
  · have settled := chained.settled (here.serial.settled_of_free chain)
    exact (amidst.settled here settled).step here punctual moved mine
  · refine ⟨tellers, passed, world, amidst.step here punctual moved mine, chained, ?_,
      (here.serial.covers chain).append world⟩
    exact fun link member => History.mem_links_left _ member

theorem Covered.lasts :
    (attended host).Lasts host (fun act => act.Waits ∨ act = .ask (.outcome task))
      (Covered host task period) where
  step {passed world next} here covered punctual moved _ mine := by
    obtain ⟨tellers, early, taking, amidst, chained, inside, covers⟩ := covered
    refine ⟨tellers, early, taking, ?_, chained,
      fun link member => History.mem_links_left _ (inside link member), covers.append world⟩
    refine amidst.step here punctual moved fun act acts => ?_
    rcases mine act acts with waits | rfl
    · exact reserved_of_waits waits
    · trivial
  between here covered between _ := by
    obtain ⟨tellers, early, taking, amidst, known⟩ := covered
    exact ⟨tellers, early, taking, amidst.between here between, known⟩

/-- Nothing is left that tells of the end of a test when the chain has ended. -/
theorem Covered.settled {outcome : Outcome} (covered : Covered host task period passed world)
    (here : Watching host passed world) (ended : world.outcome? task = some outcome) :
    world.Amidst host [] period := by
  obtain ⟨tellers, early, taking, amidst, chained, inside, covers⟩ := covered
  exact amidst.settled here (chained.settled (covers.settled here.serial inside ended))

/-- The chain is drained, with all that tells of the end of a test. -/
theorem meets_drain_telling : (attended host).Meets host wanted (Setting.Held host (Telling host period))
    Recorder.drainNow fun result passed world =>
      Uncancelled result ∧ During host [] period passed world := by
  refine .bind meets_take (fun tail => ?_) (by rintro _ _ _ _ ⟨_, ⟨⟩, _⟩)
  refine .exists_before fun known => .and_before fun same => ?_
  cases same
  cases tail with
  | none =>
    exact (Setting.Meets.pure () _).weaken (fun _ amidst => ⟨uncancelled_ok _, amidst⟩)
      fun _ here => here
  | some task =>
    have drains : (attended host).Meets host wanted (Covered host task period)
        (Recorder.settled task) fun outcome passed world =>
          Covered host task period passed world ∧ world.outcome? task = some outcome := by
      refine .settled Covered.lasts.spans fun here covered => ?_
      obtain ⟨_, _, _, _, _, _, anchor, member, same, _⟩ := covered
      exact same ▸ here.serial.inside anchor member
    refine .bind drains (fun value => ?_) fun here known => ?_
    · exact (Setting.Meets.pure () _).weaken (fun here known =>
        ⟨uncancelled_ok _, known.1.settled here known.2⟩) fun _ here => here
    · exact ⟨(here.uncancelled.plain known.2).error, known.1.settled here known.2⟩

/-- A test is ended, and has heard of its end before anything else is run. -/
theorem meets_ending (testing : period.Testing) (name event : String) (args : List Value)
    (closing : ∃ kind, collectorEvent? event = some kind ∧ kind.Closing)
    (test : Test) (outcome : Outcome) (plain : Uncancelled outcome) :
    (attended host).Meets host wanted (During host [] period) (do
        Test.fire name event args
        test.conclude
        Program.ofOutcome outcome) fun result passed world =>
      Uncancelled result ∧ During host [] period passed world := by
  have tells : (attended host).Meets host wanted (During host [] period)
      (Test.fire name event args) fun result passed world =>
        result = .ok () ∧ Setting.Held host (Telling host period) passed world := by
    refine meets_fire_telling (fun branch => Amidst.lasts.kept ?_)
      (fun amidst => ⟨[], amidst, nofun⟩) testing closing
    rintro act ⟨⟩ waits
    exact waits.elim
  have concludes : (attended host).Meets host wanted (Setting.Held host (Telling host period)) test.conclude
      fun result passed world => Uncancelled result ∧ During host [] period passed world := by
    refine .bind (meets_fire_telling (fun _ => kept_telling rfl id) And.right testing ⟨_, rfl, trivial⟩)
      (fun _ => .and_before fun _ => meets_drain_telling) (by rintro _ _ _ _ ⟨⟨⟩, _⟩)
  refine .bind tells (fun _ => .and_before fun _ => ?_) (by rintro _ _ _ _ ⟨⟨⟩, _⟩)
  refine .bind concludes (fun _ => ?_) fun _ known => ⟨known.1.error, known.2⟩
  exact (Setting.Meets.ofOutcome outcome _).weaken (fun _ known => ⟨plain, known.2⟩)
    fun _ here => here

end Ends

/-! ## Tests and suites -/

section Runs

variable {host : Nat} {wanted : Outcome → Assertion} {period period' : Period}

theorem steps_reserved (steps : List ResolvedStep) : (Test.runSteps steps).Obeys reserved := by
  induction steps with
  | nil => exact .pure ()
  | cons step rest ih =>
    exact .bind (.call nofun fun _ => trivial) fun _ => .bind (drainNow_obeys sparing_tails) fun _ => ih

theorem callFor_reserved (call : RecorderCall) : (Recorder.callFor .run call).Obeys reserved :=
  .bind (.ask trivial) fun _ => .ofExcept _

/-- A test is heard of from its beginning to its end. -/
theorem meets_test_hears (test : Test) (hears : period.Hears (.testStarted, [.test test.card]) period')
    (testing : period'.Testing) :
    (attended host).Meets host wanted (During host [] period) test.run fun result passed world =>
      Uncancelled result ∧ (During host [] period passed world ∨ During host [] period' passed world) := by
  refine .bind (meets_reserved (callFor_reserved _)) (fun _ => .and_before fun _ => ?_)
    fun _ known => ⟨known.1.error, .inl known.2⟩
  refine .bind (meets_emission rfl hears) (fun _ => .and_before fun _ => ?_)
    (by rintro _ _ _ _ ⟨⟨⟩, _⟩)
  have passing : (attended host).Meets host wanted (During host [] period') (do
      Test.runSteps test.steps
      Test.fire "fire test.passed" testPassed [.test test.card]
      test.conclude
      return Value.null) fun result passed world =>
        Uncancelled result ∧ During host [] period' passed world :=
    .bind (meets_reserved (steps_reserved _)) (fun _ => .and_before fun _ =>
      meets_ending testing _ testPassed _ ⟨_, rfl, trivial⟩ test (.ok .null) (uncancelled_ok _))
      fun _ known => ⟨known.1.error, known.2⟩
  split
  · exact (meets_ending testing _ testSkipped _ ⟨_, rfl, trivial⟩ test (.ok .null)
      (uncancelled_ok _)).weaken (fun _ here => here) fun _ known => ⟨known.1, .inr known.2⟩
  · refine .rescue passing (fun fault => .and_before fun _ => ?_)
      (fun _ known => ⟨known.1, .inr known.2⟩) fun _ known => ⟨known.1, .inr known.2⟩
    refine .bind (meets_reserved (callFor_reserved _)) (fun _ => .and_before fun _ => ?_)
      fun _ known => ⟨known.1.error, .inr known.2⟩
    exact (meets_ending testing _ testFailed _ ⟨_, rfl, trivial⟩ test (.error (.fault fault))
      (uncancelled_fault _)).weaken (fun _ here => here) fun _ known => ⟨known.1, .inr known.2⟩

/-- A suite is being run. -/
def Within (host : Nat) : Assertion := fun _ world =>
  ∃ period, (period = .begun ∨ period = .inside) ∧ world.Amidst host [] period

theorem meets_runTest_hears (test : Test) : (attended host).Meets host wanted (Within host)
    (Suite.runTest test) fun result passed world =>
      (∃ value, result = .ok value) ∧ Within host passed world := by
  have ran : (attended host).Meets host wanted (Within host) test.run fun result passed world =>
      Uncancelled result ∧ Within host passed world := by
    refine .exists_before fun period => .and_before fun within => ?_
    refine (meets_test_hears test (.test within test.card) (.inl rfl)).weaken (fun _ here => here)
      fun _ known => ⟨known.1, ?_⟩
    rcases known.2 with amidst | amidst
    · exact ⟨_, within, amidst⟩
    · exact ⟨_, .inr rfl, amidst⟩
  have ends : (attended host).Meets host wanted (Within host) (do
      let _ ← test.run
      return Value.null) fun result passed world => Uncancelled result ∧ Within host passed world := by
    refine .bind ran (fun _ => ?_) fun _ known => ⟨known.1.error, known.2⟩
    exact (Setting.Meets.pure Value.null _).weaken (fun _ known => ⟨uncancelled_ok _, known.2⟩)
      fun _ here => here
  refine .rescue ends (fun fault => ?_) (fun _ known => ⟨⟨_, rfl⟩, known.2⟩)
    fun _ known => absurd rfl known.1
  exact (Setting.Meets.pure (Value.fault fault) _).weaken (fun _ known => ⟨⟨_, rfl⟩, known.2⟩)
    fun _ here => here

theorem meets_runTests_hears (tests : List Test) : (attended host).Meets host wanted (Within host)
    (Suite.runTests tests) fun result passed world =>
      (∃ answers, result = .ok answers) ∧ Within host passed world := by
  induction tests with
  | nil =>
    exact (Setting.Meets.pure _ _).weaken (fun _ within => ⟨⟨_, rfl⟩, within⟩) fun _ here => here
  | cons test rest ih =>
    refine .bind (meets_runTest_hears test) (fun _ => .and_before fun _ => ?_)
      (by rintro _ _ _ _ ⟨⟨_, ⟨⟩⟩, _⟩)
    refine .bind ih (fun _ => .and_before fun _ => ?_) (by rintro _ _ _ _ ⟨⟨_, ⟨⟩⟩, _⟩)
    exact (Setting.Meets.pure _ _).weaken (fun _ within => ⟨⟨_, rfl⟩, within⟩) fun _ here => here

/-- A suite is heard of from its beginning to its end. -/
theorem meets_suite_hears (suite : Suite) (free : period = .between ∨ period = .alone) :
    (attended host).Meets host wanted (During host [] period) suite.run fun result passed world =>
      Uncancelled result ∧ During host [] .between passed world := by
  have begins : (attended host).Meets host wanted (During host [] period)
      (emitFor .run suiteBefore [.suite suite.card]) fun result passed world =>
        result = .ok () ∧ Within host passed world :=
    (meets_emission rfl (.suite free suite.card)).weaken (fun _ here => here)
      fun _ known => ⟨known.1, _, .inl rfl, known.2⟩
  refine .bind begins (fun _ => .and_before fun _ => ?_) (by rintro _ _ _ _ ⟨⟨⟩, _⟩)
  refine .bind (meets_runTests_hears suite.tests) (fun answers => .and_before fun _ => ?_)
    (by rintro _ _ _ _ ⟨⟨_, ⟨⟩⟩, _⟩)
  have after : (attended host).Meets host wanted (Within host)
      (emitFor .run suiteAfter [.suite suite.card]) fun result passed world =>
        result = .ok () ∧ During host [] .between passed world :=
    .exists_before fun _ => .and_before fun within => meets_emission rfl (.after within _)
  refine .bind after (fun _ => ?_) (by rintro _ _ _ _ ⟨⟨⟩, _⟩)
  exact (Setting.Meets.pure _ _).weaken (fun _ known => ⟨uncancelled_ok _, known.2⟩) fun _ here => here

end Runs

/-! ## One after the other -/

/-- What is run: a suite, or a single test outside every suite. -/
inductive Undertaking
  | suite (suite : Suite)
  | test (test : Test)

def Undertaking.run : Undertaking → Program Value
  | .suite whole => whole.run
  | .test single => single.run

/-- Where nothing is being run: no suite that has begun is left, and nothing is going to be emitted
for a run. -/
structure Reposing (passed : History) (world : World) : Prop where
  serial : Serial passed world
  watched : world.Watched
  discreet : world.Discreet
  quiet : ∀ owner process, world.process? owner = some process → process.Obeys hushed
  follows : ∃ period, (period = .between ∨ period = .alone) ∧
    Results.Follows period world.clock.microseconds world.results

/-- What may come between two runs: whatever may come from outside, and a loop may begin or stop. -/
def pausing (world next : World) : Prop :=
  Intervention (fun process => (process.Obeys mute ∧ process.Obeys hushed) ∧ process.Discreet)
    world next ∧
  next.results = world.results ∧ (world.Watched → next.Watched) ∧
  world.clock.microseconds ≤ next.clock.microseconds

theorem pausing_looping (world : World) (looping : Bool) :
    pausing world { world with looping := looping } :=
  ⟨.alters rfl, rfl, id, Nat.le_refl _⟩

/-- Suites and single tests are run in order: each as a task of a loop, or in a loop of its own that
leaves nothing to cancel. -/
inductive Succession (start : World) : List Undertaking → History → World → Prop
  | none : Succession start [] [] start
  | pause {ran : List Undertaking} {passed : History} {mid world : World}
      (earlier : Succession start ran passed mid) (comes : pausing mid world) :
      Succession start ran passed world
  | next {ran : List Undertaking} {passed later : History} {mid world : World} {outcome : Outcome}
      (earlier : Succession start ran passed mid) (undertaking : Undertaking)
      (looping : mid.looping = true)
      (run : Run unobtrusively (mid.spawn undertaking.run.toProcess).1 later world)
      (ended : world.outcome? mid.tasks.length = some outcome) :
      Succession start (ran ++ [undertaking]) (passed ++ later) world
  | alone {ran : List Undertaking} {passed : History} {mid : World}
      (earlier : Succession start ran passed mid) (undertaking : Undertaking)
      (outside : mid.looping = false) (finished : (mid.loopEnd undertaking.run).Finished) :
      Succession start (ran ++ [undertaking]) (passed ++ mid.loopPast undertaking.run)
        (mid.runLoop undertaking.run).2

section Succession

variable {host : Nat} {wanted : Outcome → Assertion} {passed later : History}
  {start mid world next : World}

theorem Undertaking.run_obeys {law : Law} (admits : law.AdmitsRuns) (undertaking : Undertaking) :
    undertaking.run.Obeys law := by
  cases undertaking with
  | suite suite => exact suite.run_obeys admits
  | test test => exact test.run_obeys admits

theorem Undertaking.run_discreet (undertaking : Undertaking) : undertaking.run.Discreet := by
  cases undertaking with
  | suite suite => exact suite.run_discreet
  | test test => exact test.run_discreet

/-- Nothing that a host has begun is left. -/
def Over (host : Nat) : Assertion := fun _ world =>
  ∃ period, (period = .between ∨ period = .alone) ∧ world.Amidst host [] period

theorem Undertaking.meets (undertaking : Undertaking) :
    (attended host).Meets host wanted (Over host) undertaking.run fun result passed world =>
      Uncancelled result ∧ Over host passed world := by
  refine .exists_before fun period => .and_before fun free => ?_
  cases undertaking with
  | suite suite =>
    exact (meets_suite_hears suite free).weaken (fun _ here => here)
      fun _ known => ⟨known.1, _, .inl rfl, known.2⟩
  | test test =>
    refine (meets_test_hears test (.single free test.card) (.inr rfl)).weaken (fun _ here => here)
      fun _ known => ⟨known.1, ?_⟩
    rcases known.2 with amidst | amidst
    · exact ⟨_, free, amidst⟩
    · exact ⟨_, .inr rfl, amidst⟩

theorem Reposing.begins (reposing : Reposing passed mid) (looping : mid.looping = true)
    (undertaking : Undertaking) :
    Watching mid.tasks.length passed (mid.spawn undertaking.run.toProcess).1 ∧
      Over mid.tasks.length passed (mid.spawn undertaking.run.toProcess).1 := by
  obtain ⟨period, free, follows⟩ := reposing.follows
  have serial := reposing.serial.between
    (.outside (.spawns (undertaking.run_obeys mute_runs).toProcess))
  refine ⟨⟨⟨serial, looping, by simp [World.spawn]⟩, reposing.watched,
    reposing.discreet.spawn undertaking.run_discreet.toProcess⟩, period, free, ?_, absurd rfl, follows⟩
  intro owner process apart left
  rw [process?_spawn reposing.serial.wired, if_neg apart] at left
  exact .inl (reposing.quiet owner process left)

theorem Reposing.ends (here : Watching host passed world) (cleared : Over host passed world)
    {outcome : Outcome} (ended : world.outcome? host = some outcome) : Reposing passed world where
  serial := here.serial
  watched := here.watched
  discreet := here.discreet
  quiet owner process left := by
    obtain ⟨_, _, amidst⟩ := cleared
    by_cases mine : owner = .task host
    · subst mine
      cases left.symm.trans (process?_of_outcome here.wired ended)
      exact .stop (here.uncancelled.plain ended)
    · rcases amidst.quiet owner process mine left with obeys | ⟨⟨_, ⟨⟩, _⟩, _⟩
      exact obeys
  follows := by
    obtain ⟨period, free, amidst⟩ := cleared
    exact ⟨period, free, amidst.follows⟩

theorem Reposing.pause (reposing : Reposing passed world) (comes : pausing world next) :
    Reposing passed next := by
  obtain ⟨comes, results, watched, onward⟩ := comes
  have serial := reposing.serial.between (.outside (comes.mono fun _ brought => brought.1.1))
  refine ⟨serial, watched reposing.watched,
    reposing.discreet.between (.outside (comes.mono fun _ brought => brought.2)), ?_, ?_⟩
  · intro owner after left
    have between : world.Between (Intervention fun process =>
      (process.Obeys mute ∧ process.Obeys hushed) ∧ process.Discreet) next := .outside comes
    rcases between.passes_or reposing.serial.wired left with ⟨before, left', passes⟩ | ⟨brought, _⟩
    · exact passes.obeys serial.uncancelled hushed_closed (fun _ => Act.unfailing_of_waits)
        (reposing.quiet owner before left')
    · exact brought.1.2
  · obtain ⟨period, free, follows⟩ := reposing.follows
    exact ⟨period, free, results ▸ follows.later onward⟩

/-- Where nothing is being run, nothing is left when something has been run. -/
theorem Reposing.run (reposing : Reposing passed mid) (looping : mid.looping = true)
    (undertaking : Undertaking)
    (run : Run unobtrusively (mid.spawn undertaking.run.toProcess).1 later world)
    (punctual : ∀ past ∈ later, past.Punctual) {outcome : Outcome}
    (ended : world.outcome? mid.tasks.length = some outcome) : Reposing (passed ++ later) world := by
  obtain ⟨here, cleared⟩ := reposing.begins looping undertaking
  have left : (mid.spawn undertaking.run.toProcess).1.process? (.task mid.tasks.length) =
      some undertaking.run.toProcess := by
    rw [process?_spawn reposing.serial.wired, if_pos rfl]
  have course : (attended mid.tasks.length).Course passed _ (passed ++ later) world :=
    .of_run passed run punctual
  have safe : (attended mid.tasks.length).Safe mid.tasks.length
      (fun _ => Over mid.tasks.length) passed (mid.spawn undertaking.run.toProcess).1 := by
    refine undertaking.meets.safe (fun outcome => .and (.const _) (.exists fun period =>
      .and (.const _) (Amidst.lasts.mono fun _ => reserved_of_waits)))
      (fun _ known => known.2) here cleared left
  exact .ends (course.holds here) (safe _ _ course _ ended) ended

/-- Nothing is left either when it has been run in a loop of its own that is closed. -/
theorem Reposing.alone (reposing : Reposing passed mid) (undertaking : Undertaking)
    (finished : (mid.loopEnd undertaking.run).Finished)
    (punctual : ∀ past ∈ mid.loopPast undertaking.run, past.Punctual) :
    Reposing (passed ++ mid.loopPast undertaking.run) (mid.runLoop undertaking.run).2 := by
  have opened : Reposing passed { mid with looping := true } :=
    reposing.pause (pausing_looping mid true)
  have run : Run unobtrusively (mid.loopStart undertaking.run) (mid.loopPast undertaking.run)
      (mid.loopEnd undertaking.run) := .loop mid undertaking.run
  have course : (attended mid.tasks.length).Course passed _ (passed ++ mid.loopPast undertaking.run)
      (mid.loopEnd undertaking.run) := .of_run passed run punctual
  have here := course.holds (opened.begins rfl undertaking).1
  obtain ⟨outcome, ended⟩ := Option.isSome_iff_exists.1 (finished _ here.inside)
  have left := opened.run rfl undertaking run punctual ended
  refine ⟨left.serial.close finished, left.watched, left.discreet.cancelAll.congr rfl rfl, ?_,
    left.follows⟩
  intro owner process known
  have same : (mid.runLoop undertaking.run).2.process? owner =
      (mid.loopEnd undertaking.run).process? owner := process?_congr (tasks_of_cancelAll finished) rfl
  exact left.quiet owner process (same.symm.trans known)

theorem Reposing.succession {ran : List Undertaking} {before : History}
    (reposing : Reposing before start) (succession : Succession start ran passed world)
    (punctual : ∀ past ∈ passed, past.Punctual) : Reposing (before ++ passed) world := by
  induction succession with
  | none => simpa using reposing
  | pause _ comes ih => exact (ih punctual).pause comes
  | next earlier undertaking looping run ended ih =>
    obtain ⟨punctual, punctual'⟩ := List.forall_mem_append.1 punctual
    rw [← List.append_assoc]
    exact (ih punctual).run looping undertaking run punctual' ended
  | alone earlier undertaking outside finished ih =>
    obtain ⟨punctual, punctual'⟩ := List.forall_mem_append.1 punctual
    rw [← List.append_assoc]
    exact (ih punctual).alone undertaking finished punctual'

end Succession

/-- Whatever suites and single tests are run one after the other, and whatever their steps, helpers
and listeners do: as long as nobody else emits the events of the collector, no listener fails and the
clock does not go back, the collector hears of them in their order. -/
theorem Succession.follows {clock : Calendar.Moment} {before passed : History} {start world : World}
    {ran : List Undertaking} (earlier : Run quietly (World.initial clock) before start)
    (watched : start.Watched) (discreet : start.Discreet)
    (quiet : ∀ owner process, start.process? owner = some process → process.Obeys hushed)
    (fresh : start.results = .initial) (succession : Succession start ran passed world)
    (punctual : ∀ past ∈ passed, past.Punctual) :
    ∃ period, (period = .between ∨ period = .alone) ∧
      Results.Follows period world.clock.microseconds world.results := by
  have reposing : Reposing before start :=
    ⟨.of_run earlier, watched, discreet, quiet, .between, .inl rfl, fresh ▸ .initial _⟩
  exact (reposing.succession succession punctual).follows

end FeatureRunner
