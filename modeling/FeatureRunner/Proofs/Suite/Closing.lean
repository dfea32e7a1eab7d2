import FeatureRunner.Proofs.Suite.Spacing

/-!
How tests leave the chain. Before it ends, a test drains the chain: whatever its steps, helpers and
listeners do, the chain that it has drained last has then ended well or just as the test has ended.
So a failure that is left in the chain is the failure of the test itself, and a test that passes
leaves none.
-/

namespace FeatureRunner
open FeatureRunner.World

/-! ## Passages -/

/-- What a task that runs tests has to do with the chain that they leave: a test begins, and the
chain up to its last task is drained. -/
inductive Passage
  | begins
  | drains (tail : Option Nat)
  deriving DecidableEq

def World.passage? (host : Nat) (world : World) : Option Passage :=
  match world.act? with
  | some (.task number, .ask (.subscribers .run event _)) =>
    if number = host ∧ event = testStarted then some .begins else none
  | some (.task number, .ask .tail) =>
    if number = host then some (.drains world.recorder.tail) else none
  | _ => none

/-- The passages of a task. -/
def World.History.passages (host : Nat) (passed : History) : List Passage :=
  passed.filterMap (World.passage? host)

theorem passages_append (host : Nat) (passed : History) (world : World) :
    History.passages host (passed ++ [world]) =
      History.passages host passed ++ (world.passage? host).toList := by
  simp only [History.passages, List.filterMap_append]
  cases found : world.passage? host <;> simp [found]

def Act.Notable : Act → Prop
  | .ask (.subscribers .run event _) => event = testStarted
  | .ask .tail => True
  | _ => False

theorem passage?_eq_none {host : Nat} {world : World}
    (silent : ∀ act, world.act? = some (.task host, act) → ¬act.Notable) : world.passage? host = none := by
  unfold World.passage?
  split
  · rename_i number event args acts
    rw [if_neg]
    rintro ⟨rfl, begins⟩
    exact silent _ acts begins
  · rename_i number acts
    rw [if_neg]
    rintro rfl
    exact silent _ acts trivial
  · rfl

/-- How a chain has ended up to a task, if there is one: well, or as something else has ended. -/
inductive Leaves (world : World) (ending : Option Fault) : Option Nat → Prop
  | empty : Leaves world ending none
  | well {task : Nat} {value : Value} (ended : world.outcome? task = some (.ok value)) :
      Leaves world ending (some task)
  | alike {task : Nat} {fault : Fault} (ended : world.outcome? task = some (.error (.fault fault)))
      (same : ending = some fault) : Leaves world ending (some task)

/-- The passages of a test that has ended. One that drains nothing fails at once, as a listener of its
beginning does. -/
inductive Test.Closes (world : World) (ending : Option Fault) : List Passage → Prop
  | early (failed : ending.isSome) : Closes world ending [.begins]
  | drained (tails : List (Option Nat)) {last : Option Nat} (leaves : Leaves world ending last) :
      Closes world ending (.begins :: (tails ++ [last]).map .drains)

theorem Test.Closes.mono {world next : World} {ending : Option Fault} {passages : List Passage}
    (closes : Test.Closes world ending passages)
    (stays : ∀ number outcome, world.outcome? number = some outcome →
      next.outcome? number = some outcome) : Test.Closes next ending passages := by
  cases closes with
  | early failed => exact .early failed
  | drained tails leaves =>
    refine .drained tails ?_
    cases leaves with
    | empty => exact .empty
    | well ended => exact .well (stays _ _ ended)
    | alike ended same => exact .alike (stays _ _ ended) same

/-! ## The setting -/

/-- What holds all along while a task runs tests in a loop. -/
structure Looped (host : Nat) (passed : History) (world : World) : Prop where
  serial : Serial passed world
  looping : world.looping = true
  inside : host < world.tasks.length

section Looped

variable {host : Nat} {passed : History} {world : World}

theorem Looped.wired (here : Looped host passed world) : world.Wired world.busy :=
  here.serial.wired

theorem Looped.uncancelled (here : Looped host passed world) : world.Uncancelled :=
  here.serial.uncancelled

end Looped

/-- What may come from outside: processes that write nothing to the trace. The loop stays. -/
def leisurely (world next : World) : Prop :=
  quietly world next ∧ next.looping = world.looping

def looped (host : Nat) : Setting where
  outside := leisurely
  fair _ := True
  holds := Looped host
  wired := @Looped.wired host
  uncancelled := @Looped.uncancelled host
  step here _ moved :=
    have stepped := step?_stepped here.serial.wired moved
    ⟨here.serial.step moved, stepped.looping.trans here.looping,
      Nat.lt_of_lt_of_le here.inside stepped.length⟩
  between here between :=
    ⟨here.serial.between (between.mono fun comes => comes.1),
      (looping_of_between between And.right).trans here.looping,
      Nat.lt_of_lt_of_le here.inside (between.mono fun comes => comes.1).length⟩
  apart here comes := comes.1.apart here.serial.wired

/-- What a task does between its passages. -/
def unnoted : Law where
  allows
    | .call role _ _ => role ≠ .run
    | act => ¬act.Notable
  assumes _ := True
  covers := False

theorem unnoted_listeners : unnoted.AdmitsListeners where
  collects _ _ _ _ _ _ _ _ := id
  calls _ _ _ := nofun
  leaves _ := id

theorem unnoted_scripts {role : Role} (apart : role ≠ .run) (suspends : Bool) :
    unnoted.AdmitsScripts role suspends where
  toAdmitsListeners := unnoted_listeners
  asks request scripted := by
    cases request with
    | subscribers speaker event args =>
      rcases scripted with rfl | ⟨rfl, rfl⟩
      · cases speaker with
        | run => exact absurd rfl apart
        | _ => exact id
      · exact id
    | tail => exact scripted.elim
    | _ => exact id
  adds _ _ _ := id
  works covers := covers.elim
  awaits _ _ _ _ _ _ := id
  waits _ := ⟨fun _ => id, id⟩

theorem unnoted_closed : unnoted.Closed :=
  fun _ callable args apart => callable.process_obeys (unnoted_scripts apart _) args

section Looped

variable {host : Nat} {passages : List Passage} {wanted : Outcome → Assertion}
  {passed : History} {world next : World}

theorem unnoted_suits : (looped host).Suits host unnoted where
  closed := unnoted_closed
  waits _ _ := trivial
  assumes _ _ _ := trivial
  grants here _ _ := here.serial.uncancelled.fair _
  numbers _ _ := trivial

/-- The passages of a task are known. -/
def Noted (host : Nat) (passages : List Passage) : Assertion := fun passed _ =>
  passed.passages host = passages

theorem Noted.step {act : Act} (noted : Noted host passages passed world)
    (acts : world.act? = some (.task host, act)) (silent : ¬act.Notable) :
    Noted host passages (passed ++ [world]) next := by
  have none : world.passage? host = none := passage?_eq_none fun other acts' => by
    cases acts.symm.trans acts'
    exact silent
  rw [Noted, passages_append, none, noted]
  exact List.append_nil _

theorem Noted.lasts {kind : Act → Prop} (silent : ∀ act, kind act → ¬act.Notable) :
    (looped host).Lasts host kind (Noted host passages) where
  step {passed world next} _ noted _ _ _ mine := by
    have none : world.passage? host = none := passage?_eq_none fun act acts => silent act (mine act acts)
    rw [Noted, passages_append, none, noted]
    exact List.append_nil _
  between _ noted _ _ := noted

/-- What does nothing notable leaves the passages as they are. -/
theorem Noted.meets {α : Type} {program : Program α} (obeys : program.Obeys unnoted) :
    (looped host).Meets host wanted (Noted host passages) program fun result passed world =>
      Uncancelled result ∧ Noted host passages passed world := by
  refine .lawful unnoted_suits (Noted.lasts fun act allowed => ?_) obeys
  cases act with
  | call role callable args => exact id
  | _ => exact allowed

theorem noted_waits : ∀ act : Act, act.Waits → ¬act.Notable := by
  intro act waits
  cases act with
  | ask request => exact waits.elim
  | _ => exact id

/-- Adding a task that tells of an event. The loop is there, so it is added. -/
theorem noted_fire (name event : String) (args : List Value) :
    (looped host).Meets host wanted (Noted host passages) (Test.fire name event args)
      fun result passed world => result = .ok () ∧ Noted host passages passed world := by
  have adds : (looped host).Meets host wanted (Noted host passages)
      (Program.addFor .run name (do
        emitFor .run event args
        return .null)) fun result passed world =>
          (∃ number, result = .ok number) ∧ Noted host passages passed world := by
    refine .addFor (fun _ => (Noted.lasts noted_waits).kept fun _ _ waits => waits) ?_
    intro passed world next process here noted _ acts moved result _
    refine ⟨?_, noted.step acts id⟩
    simp [World.addTask, here.looping, Except.mapError]
  refine .bind adds (fun _ => ?_) (by rintro _ _ _ _ ⟨⟨_, ⟨⟩⟩, _⟩)
  exact (Setting.Meets.pure () _).weaken (fun _ here => ⟨rfl, here.2⟩) fun _ here => here

/-- A call of the recorder for the run. The loop is there, so it does not fail. -/
theorem noted_callFor (call : RecorderCall) :
    (looped host).Meets host wanted (Noted host passages) (Recorder.callFor .run call)
      fun result passed world => result = .ok () ∧ Noted host passages passed world := by
  have asks : (looped host).Meets host wanted (Noted host passages)
      (Program.ask (.recorder .run call)) fun result passed world =>
        result = .ok (.ok ()) ∧ Noted host passages passed world := by
    refine .ask (fun _ => (Noted.lasts noted_waits).kept fun _ _ waits => waits) ?_
    intro passed world next process here noted _ acts moved _ _
    refine ⟨congrArg Except.ok ?_, noted.step acts id⟩
    cases call with
    | recover =>
      change world.recover.1 = _
      unfold World.recover
      split
      · rfl
      · simp only [here.looping]
        split <;> rfl
    | _ => rfl
  refine .bind asks (fun answer => ?_) (by rintro _ _ _ _ ⟨⟨⟩, _⟩)
  refine .and_before fun same => ?_
  cases same
  exact (Setting.Meets.pure () _).weaken (fun _ noted => ⟨rfl, noted⟩) fun _ here => here

/-- What a drain has answered is how the chain has ended. -/
def Found (world : World) (tail : Option Nat) : Except Failure Unit → Prop
  | .ok _ => ∀ ending, Leaves world ending tail
  | .error (.fault fault) => Leaves world (some fault) tail
  | .error .cancelled => False

theorem found_of_outcome {task : Nat} {outcome : Outcome} (uncancelled : world.Uncancelled)
    (ended : world.outcome? task = some outcome) :
    Found world (some task) (outcome.map fun _ => ()) := by
  match outcome with
  | .ok value => exact fun _ => .well ended
  | .error (.fault fault) => exact .alike ended rfl
  | .error .cancelled => exact uncancelled task ended

/-- The chain is drained, which is one more passage, and the end of the chain is known. -/
theorem noted_drain : (looped host).Meets host wanted (Noted host passages) Recorder.drainNow
    fun result passed world => ∃ tail, Found world tail result ∧
      Noted host (passages ++ [.drains tail]) passed world := by
  have asks : (looped host).Meets host wanted (Noted host passages) (Program.ask .tail)
      fun result passed world => ∃ tail, result = .ok tail ∧
        Noted host (passages ++ [.drains tail]) passed world ∧
        ∀ task, tail = some task → ∃ link ∈ passed.links, link.number = task := by
    refine .ask (fun _ => (Noted.lasts noted_waits).kept fun _ _ waits => waits) ?_
    intro passed world next process here noted _ acts moved result here'
    have passage : world.passage? host = some (.drains world.recorder.tail) := by
      simp [World.passage?, acts]
    refine ⟨world.recorder.tail, rfl, ?_, fun task behind => ?_⟩
    · rw [Noted, passages_append, passage, noted]
      rfl
    · obtain ⟨_, link, member, same, _⟩ := here.serial.tail.anchored task behind
      rw [History.links_append]
      exact ⟨link, List.mem_append_left _ member, same⟩
  refine .bind asks (fun tail => ?_) (by rintro _ _ _ _ ⟨_, ⟨⟩, _⟩)
  refine .exists_before fun known => .and_before fun same => ?_
  cases same
  cases tail with
  | none =>
    refine (Setting.Meets.pure () _).weaken (fun _ here => ?_) fun _ here => here
    exact ⟨none, fun _ => .empty, here.1⟩
  | some task =>
    have linked : (looped host).Lasts host (fun _ => True) fun passed _ =>
        ∀ other, some task = some other → ∃ link ∈ passed.links, link.number = other := by
      constructor
      · intro passed world next _ known _ _ _ _ other same
        obtain ⟨link, member, number⟩ := known other same
        rw [History.links_append]
        exact ⟨link, List.mem_append_left _ member, number⟩
      · exact fun _ known _ _ => known
    have kept : (looped host).Lasts host (fun act => act.Waits ∨ act = .ask (.outcome task))
        fun passed world => Noted host (passages ++ [.drains (some task)]) passed world ∧
          ∀ other, some task = some other → ∃ link ∈ passed.links, link.number = other := by
      refine .and (Noted.lasts ?_) (linked.mono fun _ _ => trivial)
      rintro act (waits | rfl)
      · exact noted_waits act waits
      · exact id
    refine .bind (.settled kept.spans fun here known => ?_) (fun value => ?_) ?_
    · obtain ⟨link, member, same⟩ := known.2 task rfl
      exact same ▸ here.serial.inside link member
    · refine (Setting.Meets.pure () _).weaken (fun here known => ?_) fun _ here => here
      exact ⟨some task, found_of_outcome here.serial.uncancelled known.2, known.1.1⟩
    · intro failure passed world here known
      exact ⟨some task, found_of_outcome here.serial.uncancelled known.2, known.1.1⟩

/-! ## Tests -/

/-- A test has begun, behind other passages, and drained the chain some times. -/
def Begun (host : Nat) (passages : List Passage) : Assertion := fun passed world =>
  ∃ tails : List (Option Nat), Noted host (passages ++ .begins :: tails.map .drains) passed world

/-- A test has drained the chain, and what it has found is known. -/
def Drained (host : Nat) (passages : List Passage) (result : Except Failure Unit) : Assertion :=
  fun passed world => ∃ (tails : List (Option Nat)) (last : Option Nat), Found world last result ∧
    Noted host (passages ++ .begins :: (tails ++ [last]).map .drains) passed world

theorem Drained.begun {result : Except Failure Unit} (drained : Drained host passages result passed world) :
    Begun host passages passed world := by
  obtain ⟨tails, last, _, noted⟩ := drained
  exact ⟨tails ++ [last], noted⟩

theorem Begun.meets_of_noted {α : Type} {program : Program α} {after : Except Failure α → Assertion}
    (meets : ∀ tails : List (Option Nat), (looped host).Meets host wanted
      (Noted host (passages ++ .begins :: tails.map .drains)) program after) :
    (looped host).Meets host wanted (Begun host passages) program after :=
  .exists_before meets

theorem meets_drained : (looped host).Meets host wanted (Begun host passages) Recorder.drainNow
    (Drained host passages) := by
  refine Begun.meets_of_noted fun tails => noted_drain.weaken (fun _ here => here) fun _ known => ?_
  obtain ⟨tail, found, noted⟩ := known
  exact ⟨tails, tail, found, by simpa using noted⟩

/-- What does nothing notable in a test. -/
theorem Begun.meets {α : Type} {program : Program α} (obeys : program.Obeys unnoted) :
    (looped host).Meets host wanted (Begun host passages) program fun result passed world =>
      Uncancelled result ∧ Begun host passages passed world :=
  Begun.meets_of_noted fun tails => (Noted.meets obeys).weaken (fun _ here => here) fun _ known =>
    ⟨known.1, tails, known.2⟩

theorem begun_fire (name event : String) (args : List Value) :
    (looped host).Meets host wanted (Begun host passages) (Test.fire name event args)
      fun result passed world => result = .ok () ∧ Begun host passages passed world :=
  Begun.meets_of_noted fun tails => (noted_fire name event args).weaken (fun _ here => here) fun _ known =>
    ⟨known.1, tails, known.2⟩

theorem meets_runSteps_drained (steps : List ResolvedStep) :
    (looped host).Meets host wanted (Begun host passages) (Test.runSteps steps)
      fun result passed world => Uncancelled result ∧ Begun host passages passed world := by
  induction steps with
  | nil => exact (Setting.Meets.pure () _).weaken (fun _ begun => ⟨uncancelled_ok _, begun⟩) fun _ here => here
  | cons step rest ih =>
    have body : step.run.Obeys unnoted := .call nofun fun _ => id
    refine .bind (Begun.meets body) (fun _ => ?_) fun _ known => ⟨known.1.error, known.2⟩
    refine .and_before fun _ => .bind meets_drained (fun _ => ?_) fun _ drained => ?_
    · exact ih.weaken (fun _ drained => drained.begun) fun _ here => here
    · refine ⟨?_, drained.begun⟩
      obtain ⟨_, _, found, _⟩ := drained
      rintro ⟨⟩
      exact found

/-- The end of a test, which drains the chain. -/
theorem meets_drained_end (name event : String) (args : List Value) (test : Test) (outcome : Outcome) :
    (looped host).Meets host wanted (Begun host passages) (do
        Test.fire name event args
        test.conclude
        Program.ofOutcome outcome) fun result passed world => ∃ drain,
      Drained host passages drain passed world ∧ result = drain.bind fun _ => outcome := by
  have concludes : (looped host).Meets host wanted (Begun host passages) test.conclude
      (Drained host passages) :=
    .bind (begun_fire _ _ _) (fun _ => .and_before fun _ => meets_drained)
      (by rintro _ _ _ _ ⟨⟨⟩, _⟩)
  refine .bind (begun_fire name event args) (fun _ => ?_) (by rintro _ _ _ _ ⟨⟨⟩, _⟩)
  refine .and_before fun _ => .bind concludes (fun _ => ?_) fun _ drained => ⟨_, drained, rfl⟩
  exact (Setting.Meets.ofOutcome outcome _).weaken (fun _ drained => ⟨_, drained, rfl⟩)
    fun _ here => here

/-- A test has ended, behind other passages. -/
def TestClosed (host : Nat) (passages : List Passage) (result : Outcome) : Assertion :=
  fun passed world => ∃ ending part, result = Test.outcome ending ∧ Test.Closes world ending part ∧
    Noted host (passages ++ part) passed world

theorem Drained.closed {drain : Except Failure Unit} (drained : Drained host passages drain passed world)
    (ending : Option Fault) :
    TestClosed host passages (drain.bind fun _ => Test.outcome ending) passed world := by
  obtain ⟨tails, last, found, noted⟩ := drained
  match drain with
  | .ok () => exact ⟨ending, _, rfl, .drained tails (found ending), noted⟩
  | .error (.fault fault) => exact ⟨some fault, _, rfl, .drained tails found, noted⟩
  | .error .cancelled => exact found.elim

/-- A test begins. -/
theorem meets_begin (args : List Value) :
    (looped host).Meets host wanted (Noted host passages) (emitFor .run testStarted args)
      fun result passed world => Uncancelled result ∧
        Noted host (passages ++ [.begins]) passed world := by
  have asks : (looped host).Meets host wanted (Noted host passages)
      (Program.ask (.subscribers .run testStarted args)) fun result passed world =>
        (∃ subscribers, result = .ok subscribers) ∧
          Noted host (passages ++ [.begins]) passed world := by
    refine .ask (fun _ => (Noted.lasts noted_waits).kept fun _ _ waits => waits) ?_
    intro passed world next process _ noted _ acts _ _ _
    have passage : world.passage? host = some .begins := by simp [World.passage?, acts]
    refine ⟨⟨_, rfl⟩, ?_⟩
    rw [Noted, passages_append, passage, noted]
    rfl
  refine .bind asks (fun subscribers => .and_before fun _ => ?_) (by rintro _ _ _ _ ⟨⟨_, ⟨⟩⟩, _⟩)
  exact Noted.meets (notifyAll_obeys unnoted_listeners args subscribers fun _ _ => id)

/-- The passing part of a test: it closes the test unless a fault arises. -/
theorem meets_passing_closes (test : Test) :
    (looped host).Meets host wanted (Begun host passages) (do
        Test.runSteps test.steps
        Test.fire "fire test.passed" testPassed [.test test.card]
        test.conclude
        return Value.null) fun result passed world => Uncancelled result ∧
      Begun host passages passed world ∧
      ∀ value, result = .ok value → TestClosed host passages result passed world := by
  refine .bind (meets_runSteps_drained test.steps) (fun _ => .and_before fun _ => ?_)
    fun _ known => ⟨known.1.error, known.2, by rintro _ ⟨⟩⟩
  refine (meets_drained_end _ _ _ test (Test.outcome none)).weaken (fun _ here => here)
    fun _ here => ?_
  obtain ⟨drain, drained, rfl⟩ := here
  refine ⟨?_, drained.begun, fun _ _ => drained.closed none⟩
  obtain ⟨_, _, found, _⟩ := drained
  match drain with
  | .ok () => exact uncancelled_ok _
  | .error (.fault fault) => exact uncancelled_fault fault
  | .error .cancelled => exact found.elim

theorem meets_failing_closes (test : Test) (fault : Fault) :
    (looped host).Meets host wanted (Begun host passages) (do
        Recorder.callFor .run .recover
        Test.fire "fire test.failed" testFailed [.test test.card, .fault fault]
        test.conclude
        Program.throw fault) (TestClosed host passages) := by
  have recovers : (looped host).Meets host wanted (Begun host passages)
      (Recorder.callFor .run .recover) fun result passed world =>
        result = .ok () ∧ Begun host passages passed world :=
    Begun.meets_of_noted fun tails => (noted_callFor .recover).weaken (fun _ here => here)
      fun _ known => ⟨known.1, tails, known.2⟩
  refine .bind recovers (fun _ => .and_before fun _ => ?_) (by rintro _ _ _ _ ⟨⟨⟩, _⟩)
  refine (meets_drained_end _ _ _ test (Test.outcome (some fault))).weaken (fun _ here => here)
    fun _ here => ?_
  obtain ⟨drain, drained, rfl⟩ := here
  exact drained.closed (some fault)

theorem meets_test_closes (test : Test) :
    (looped host).Meets host wanted (Noted host passages) test.run (TestClosed host passages) := by
  have begun {program : Program Value} (meets : (looped host).Meets host wanted
      (Begun host passages) program (TestClosed host passages)) :
      (looped host).Meets host wanted (Noted host (passages ++ [.begins])) program
        (TestClosed host passages) :=
    meets.weaken (fun _ noted => ⟨[], noted⟩) fun _ here => here
  refine .bind (noted_callFor _) (fun _ => .and_before fun _ => ?_) (by rintro _ _ _ _ ⟨⟨⟩, _⟩)
  refine .bind (meets_begin _) (fun _ => .and_before fun _ => ?_) ?_
  · split
    · refine begun ((meets_drained_end _ _ _ test (Test.outcome none)).weaken (fun _ here => here)
        fun _ here => ?_)
      obtain ⟨drain, drained, rfl⟩ := here
      exact drained.closed none
    · refine begun (.rescue (meets_passing_closes test) (fun fault => ?_)
        (fun _ known => known.2.2 _ rfl) fun _ known => absurd rfl known.1)
      exact (meets_failing_closes test fault).weaken (fun _ known => known.2.1) fun _ here => here
  · rintro failure passed world _ ⟨plain, noted⟩
    match failure with
    | .fault fault => exact ⟨some fault, _, rfl, .early rfl, noted⟩
    | .cancelled => exact absurd rfl plain

/-! ## Suites -/

/-- Tests have ended in order, behind other passages. -/
def TestsClosed (host : Nat) (passages : List Passage) (tests : List Test)
    (endings : List (Option Fault)) : Assertion := fun passed world =>
  endings.length = tests.length ∧ ∃ parts, List.Forall₂ (Test.Closes world) endings parts ∧
    Noted host (passages ++ parts.flatten) passed world

theorem meets_runTest_closes (test : Test) : (looped host).Meets host wanted (Noted host passages)
    (Suite.runTest test) fun result passed world => ∃ ending part,
      result = .ok (ending.elim .null .fault) ∧ Test.Closes world ending part ∧
        Noted host (passages ++ part) passed world := by
  have ran : (looped host).Meets host wanted (Noted host passages)
      (do let _ ← test.run
          return Value.null) (TestClosed host passages) := by
    refine .bind (meets_test_closes test) (fun _ => ?_) ?_
    · refine (Setting.Meets.pure Value.null _).weaken (fun _ here => ?_) fun _ here => here
      obtain ⟨ending, part, same, closes, noted⟩ := here
      cases ending with
      | none => exact ⟨none, part, rfl, closes, noted⟩
      | some fault => cases same
    · rintro failure passed world _ ⟨ending, part, same, closes, noted⟩
      cases ending with
      | none => cases same
      | some fault =>
        cases same
        exact ⟨some fault, part, rfl, closes, noted⟩
  refine .rescue ran (fun fault => ?_) ?_ ?_
  · refine (Setting.Meets.pure (Value.fault fault) _).weaken (fun _ here => ?_) fun _ here => here
    obtain ⟨ending, part, same, closes, noted⟩ := here
    cases ending with
    | none => cases same
    | some other =>
      cases same
      exact ⟨some fault, part, rfl, closes, noted⟩
  · rintro value passed world _ ⟨ending, part, same, closes, noted⟩
    cases ending with
    | none =>
      cases same
      exact ⟨none, part, rfl, closes, noted⟩
    | some fault => cases same
  · rintro passed world _ ⟨ending, part, same, _⟩
    cases ending <;> cases same

theorem meets_runTests_closes (tests : List Test) : (looped host).Meets host wanted (Noted host passages)
    (Suite.runTests tests) fun result passed world => ∃ endings,
      result = .ok (List.zipWith Test.report tests endings) ∧
        TestsClosed host passages tests endings passed world := by
  induction tests generalizing passages with
  | nil =>
    refine (Setting.Meets.pure _ _).weaken (fun _ noted => ?_) fun _ here => here
    exact ⟨[], rfl, rfl, [], .nil, by simpa using noted⟩
  | cons test rest ih =>
    refine .bind (meets_runTest_closes test) (fun answer => ?_) (by rintro _ _ _ _ ⟨_, _, ⟨⟩, _⟩)
    refine .exists_before fun ending => .exists_before fun part => .and_before fun same => ?_
    cases same
    have known : (looped host).Lasts host (fun _ => True)
        (fun _ world => Test.Closes world ending part) := by
      constructor
      · exact fun here closes _ moved _ _ => closes.mono fun _ _ ended =>
          (step?_stepped here.serial.wired moved).settled here.serial.wired ended
      · intro passed world next here closes between here'
        refine closes.mono fun number outcome ended => ?_
        exact (Setting.Lasts.outcome number outcome : (looped host).Lasts host (fun _ => True) _).between
          here ended between here'
    refine .bind (.frame ih known) (fun answers => ?_) (by rintro _ _ _ _ ⟨_, _, ⟨⟩, _⟩)
    refine (Setting.Meets.pure _ _).weaken (fun _ here => ?_) fun _ here => here
    obtain ⟨closes, endings, same, length, parts, all, noted⟩ := here
    cases same
    exact ⟨ending :: endings, rfl, congrArg Nat.succ length, part :: parts, .cons closes all,
      by simpa using noted⟩

/-- A suite has ended: unless a listener of its beginning or its end has failed, its tests have. -/
def SuiteClosed (host : Nat) (suite : Suite) (outcome : Outcome) : Assertion := fun passed world =>
  ∀ value, outcome = .ok value → ∃ endings,
    value = .list (List.zipWith Test.report suite.tests endings) ∧
      TestsClosed host [] suite.tests endings passed world

theorem TestsClosed.lasts {kind : Act → Prop} (silent : ∀ act, kind act → ¬act.Notable)
    {tests : List Test} {endings : List (Option Fault)} :
    (looped host).Lasts host kind (TestsClosed host passages tests endings) := by
  have closes {endings : List (Option Fault)} {parts : List (List Passage)} {world next : World}
      (all : List.Forall₂ (Test.Closes world) endings parts)
      (stays : ∀ number outcome, world.outcome? number = some outcome →
        next.outcome? number = some outcome) : List.Forall₂ (Test.Closes next) endings parts :=
    all.imp fun _ _ closes => closes.mono stays
  constructor
  · rintro passed world next here ⟨length, parts, all, noted⟩ _ moved here' mine
    exact ⟨length, parts, closes all fun _ _ ended =>
      (step?_stepped here.serial.wired moved).settled here.serial.wired ended,
      (Noted.lasts silent).step here noted trivial moved here' mine⟩
  · rintro passed world next here ⟨length, parts, all, noted⟩ between here'
    refine ⟨length, parts, closes all fun number outcome ended => ?_, noted⟩
    exact (Setting.Lasts.outcome number outcome : (looped host).Lasts host (fun _ => True) _).between
      here ended between here'

theorem meets_suite_closes (suite : Suite) : (looped host).Meets host wanted (Noted host [])
    suite.run (SuiteClosed host suite) := by
  have emits (event : String) (other : event ≠ testStarted) (args : List Value) :
      (emitFor .run event args).Obeys unnoted :=
    emitFor_obeys unnoted_listeners other
  refine .bind (Noted.meets (emits suiteBefore (by decide) _)) (fun _ => .and_before fun _ => ?_)
    (by rintro _ _ _ _ _ _ ⟨⟩)
  refine .bind (meets_runTests_closes suite.tests) (fun answers => .exists_before fun endings => ?_)
    (by rintro _ _ _ _ ⟨_, ⟨⟩, _⟩)
  refine .and_before fun same => ?_
  cases same
  have after : (looped host).Meets host wanted (TestsClosed host [] suite.tests endings)
      (emitFor .run suiteAfter [.suite suite.card]) fun result passed world =>
        Uncancelled result ∧ TestsClosed host [] suite.tests endings passed world := by
    refine .lawful unnoted_suits (TestsClosed.lasts fun act allowed => ?_) (emits suiteAfter (by decide) _)
    cases act with
    | call role callable args => exact id
    | _ => exact allowed
  refine .bind after (fun _ => ?_) (by rintro _ _ _ _ _ _ ⟨⟩)
  refine (Setting.Meets.pure _ _).weaken (fun _ closed => ?_) fun _ here => here
  rintro _ ⟨⟩
  exact ⟨endings, rfl, closed.2⟩

end Looped

/-- Whatever steps, helpers and listeners do, and whoever else is at work: each test of a suite that
has been run drains the chain before it ends, unless it fails at its beginning, and the chain has
then ended well or just as the test. -/
theorem suite_closes {clock : Calendar.Moment} {before passed : History} {start world : World}
    (suite : Suite) (earlier : Run quietly (World.initial clock) before start)
    (looping : start.looping = true) (run : Run leisurely (start.spawn suite.run.toProcess).1 passed world)
    {value : Value} (ended : world.outcome? start.tasks.length = some (.ok value)) :
    ∃ endings parts, value = .list (List.zipWith Test.report suite.tests endings) ∧
      endings.length = suite.tests.length ∧
      History.passages start.tasks.length passed = parts.flatten ∧
      List.Forall₂ (Test.Closes world) endings parts := by
  have serial : Serial before start := .of_run earlier
  have here : Looped start.tasks.length before (start.spawn suite.run.toProcess).1 :=
    ⟨serial.between (.outside (.spawns (suite.run_obeys mute_runs).toProcess)), looping,
      by simp [World.spawn]⟩
  have unnoted : History.passages start.tasks.length before = [] := by
    refine List.filterMap_eq_nil_iff.2 fun past member => passage?_eq_none fun act acts => ?_
    exact absurd (earlier.owner_lt member acts) (Nat.lt_irrefl _)
  have left : (start.spawn suite.run.toProcess).1.process? (.task start.tasks.length) =
      some suite.run.toProcess := by
    rw [process?_spawn serial.wired, if_pos rfl]
  have safe : (looped start.tasks.length).Safe start.tasks.length
      (SuiteClosed start.tasks.length suite) before (start.spawn suite.run.toProcess).1 := by
    refine (meets_suite_closes suite).safe (fun outcome => ?_) (fun _ closed => closed) here unnoted left
    constructor
    · intro passed world next here closed fair moved here' mine value same
      obtain ⟨endings, answered, closed⟩ := closed value same
      exact ⟨endings, answered,
        (TestsClosed.lasts noted_waits).step here closed fair moved here' mine⟩
    · intro passed world next here closed between here' value same
      obtain ⟨endings, answered, closed⟩ := closed value same
      exact ⟨endings, answered, (TestsClosed.lasts noted_waits).between here closed between here'⟩
  obtain ⟨endings, same, length, parts, all, noted⟩ :=
    safe _ _ (.of_run before run fun _ _ => trivial) _ ended value rfl
  refine ⟨endings, parts, same, length, ?_, all⟩
  have split : History.passages start.tasks.length (before ++ passed) =
      History.passages start.tasks.length passed := by
    have unnoted : before.filterMap (World.passage? start.tasks.length) = [] := unnoted
    rw [History.passages, List.filterMap_append, unnoted]
    rfl
  exact split.symm.trans noted

/-- A pending test, and one without any steps. -/
def inheritingSuite : Suite :=
  ⟨"inheriting", "", [], [⟨"pending", [], [], true⟩, ⟨"empty", [], [], false⟩]⟩

/-- A loop in which a listener fails that is told of skipped tests. -/
def failingWorld : World :=
  { World.initial ⟨0, none⟩ with
    looping := true
    dispatcher := Dispatcher.initial.on testSkipped (.scripted "fails")
    listeners := [("fails", .script "fails" ⟨[], 0, true, []⟩ false false 0 [.raise .value none])] }

theorem suite_closes_inheriting : ∃ passed world value endings parts,
    Run leisurely (failingWorld.spawn inheritingSuite.run.toProcess).1 passed world ∧
    world.outcome? 0 = some (.ok value) ∧
    value = .list (List.zipWith Test.report inheritingSuite.tests endings) ∧
    History.passages 0 passed = parts.flatten ∧ List.Forall₂ (Test.Closes world) endings parts := by
  have earlier : Run quietly (World.initial ⟨0, none⟩) [] failingWorld :=
    Run.refl.between (.outside (.alters rfl))
  let played := World.play 300 (failingWorld.spawn inheritingSuite.run.toProcess).1
  have ended : ((played.2.outcome? 0).bind Except.toOption).isSome := by decide +kernel
  obtain ⟨value, ended⟩ := Option.isSome_iff_exists.1 ended
  obtain ⟨outcome, ended, known⟩ := Option.bind_eq_some_iff.1 ended
  cases outcome with
  | error failure => cases known
  | ok found =>
    cases known
    obtain ⟨endings, parts, same, _, passages, closes⟩ :=
      suite_closes inheritingSuite earlier rfl (.play _ _) ended
    exact ⟨_, _, _, endings, parts, .play _ _, ended, same, passages, closes⟩

/-- A test in which nothing fails ends with a failure, which is left from the test before it. -/
theorem failure_inherited : ∃ early late world value,
    Run leisurely (failingWorld.spawn inheritingSuite.run.toProcess).1 (early ++ late) world ∧
    world.outcome? 0 = some (.ok value) ∧ (Suite.faults value).map Option.isSome = [true, true] ∧
    (History.passages 0 early).head? = some .begins ∧
    late.head?.bind (World.passage? 0) = some .begins ∧
    ∀ past ∈ late, ∀ found ∈ past.act?, ¬found.2.Fails := by
  let played := World.play 300 (failingWorld.spawn inheritingSuite.run.toProcess).1
  have ended : ((played.2.outcome? 0).map fun outcome =>
      outcome.toOption.map fun value => (Suite.faults value).map Option.isSome) =
        some (some [true, true]) := by decide +kernel
  obtain ⟨outcome, ended, answered⟩ := Option.map_eq_some_iff.1 ended
  obtain ⟨value, known, faults⟩ := Option.map_eq_some_iff.1 answered
  cases outcome with
  | error failure => cases known
  | ok found =>
    cases known
    have run : Run leisurely (failingWorld.spawn inheritingSuite.run.toProcess).1
        (played.1.take 23 ++ played.1.drop 23) played.2 := by
      rw [List.take_append_drop]
      exact .play _ _
    exact ⟨_, _, _, _, run, ended, faults, by decide +kernel, by decide +kernel, by decide +kernel⟩

end FeatureRunner
