import FeatureRunner.Proofs.Suite.Fire

/-!
The steps of a test. A step body adds tasks to a sound chain, and the chain is drained behind it. A
drain that ends with a fault leads along the chain to a task that the body has added, that has begun
and has failed.
-/

namespace FeatureRunner
open FeatureRunner.World

/-! ## What a step body adds -/

/-- The tasks of the chain from a number on that have work have been added, each behind another of
them or behind a sound one. -/
structure Tracked (start : Nat) (added : List Nat) (passed : History) (world : World) : Prop where
  known : ∀ link ∈ passed.links, start ≤ link.number → link.work.isSome → link.number ∈ added
  behind : ∀ link ∈ passed.links, start ≤ link.number → link.work.isSome →
    ∀ number, link.previous = some number → start ≤ number ∨ Sound passed world number

section Tracked

variable {task start number : Nat} {attached : Prop} {added added' : List Nat} {passed : History}
  {world next : World}

theorem Tracked.step (tracked : Tracked start added passed world) (hosted : Hosted task passed world)
    (moved : world.step? = some next) (more : ∀ number ∈ added, number ∈ added')
    (fresh : ∀ link, world.link? = some link → link.work.isSome → link.number ∈ added' ∧
      ∀ number, link.previous = some number → start ≤ number ∨ Sound passed world number) :
    Tracked start added' (passed ++ [world]) next where
  known link member late work := by
    rw [History.links_append, List.mem_append, Option.mem_toList] at member
    rcases member with old | made
    · exact more _ (tracked.known link old late work)
    · exact (fresh link made work).1
  behind link member late work number behind := by
    rw [History.links_append, List.mem_append, Option.mem_toList] at member
    have before : start ≤ number ∨ Sound passed world number := by
      rcases member with old | made
      · exact tracked.behind link old late work number behind
      · exact (fresh link made work).2 number behind
    exact before.imp_right (·.step hosted moved)

theorem Tracked.beside (tracked : Tracked start added passed world)
    (hosted : Hosted task passed world) (orderly : world.Orderly attached) (beside : world.Beside)
    (moved : world.step? = some next) : Tracked start added (passed ++ [world]) next := by
  refine tracked.step hosted moved (fun _ => id) fun link made work => ?_
  rw [beside.work_of_link orderly made] at work
  cases work

theorem Tracked.between (tracked : Tracked start added passed world)
    (hosted : Hosted task passed world) (between : world.Between besides next) :
    Tracked start added passed next where
  known := tracked.known
  behind link member late work number behind :=
    (tracked.behind link member late work number behind).imp_right (·.between hosted between)

/-- From the beginning nothing has been added. -/
theorem Tracked.begin (hosted : Hosted task passed world) :
    Tracked world.tasks.length [] passed world where
  known link member late := absurd (hosted.serial.inside link member) (Nat.not_lt.2 late)
  behind link member late := absurd (hosted.serial.inside link member) (Nat.not_lt.2 late)

/-- A link that ends with a fault passes it on or has itself begun. -/
theorem Stage.failed {link : Link} {lines : List String} {fault : Fault}
    (stage : Stage world link lines (.done (.error (.fault fault)))) :
    link.work.isSome ∧ (lines ≠ [] ∨ ∃ previous, link.previous = some previous ∧
      world.outcome? previous = some (.error (.fault fault))) := by
  generalize equal : Process.done (.error (.fault fault)) = process at stage
  cases stage with
  | waits => cases equal
  | joins => cases equal
  | checks => cases equal
  | opens => cases equal
  | poisoned behind work ended =>
    cases equal
    exact ⟨work, .inr ⟨_, behind, ended⟩⟩
  | works work => exact ⟨by rw [work]; rfl, .inl (by simp)⟩
  | reported work => exact ⟨by rw [work]; rfl, .inl (by simp)⟩
  | stands => cases equal
  | stood => cases equal

/-- A fault at the end of the chain comes from a task that has been added. -/
theorem Tracked.sunk {fault : Fault} (tracked : Tracked start added passed world)
    (serial : Serial passed world) (late : start ≤ number ∨ Sound passed world number)
    (linked : ∃ link ∈ passed.links, link.number = number)
    (ended : world.outcome? number = some (.error (.fault fault))) :
    passed.Sunk world added (some number) fault := by
  induction number using Nat.strongRecOn with
  | ind number ih =>
    obtain ⟨link, member, rfl⟩ := linked
    have from_start : start ≤ link.number :=
      late.resolve_right fun sound => sound.unfailed serial _ ended
    obtain ⟨work, here | ⟨previous, behind, failed⟩⟩ :=
      (serial.staged link member _ (process?_of_outcome serial.wired ended)).failed
    · exact ⟨link.number, tracked.known link member from_start work, .last, here, ended⟩
    · obtain ⟨below, earlier, member', same, _⟩ :=
        (serial.follows link member).anchored previous behind
      obtain ⟨culprit, inside, chain, begun, ended'⟩ := ih previous below
        (tracked.behind link member from_start work previous behind) ⟨earlier, member', same⟩ failed
      exact ⟨culprit, inside, .before member work (behind ▸ chain), begun, ended'⟩

end Tracked

/-! ## While a step body runs -/

/-- A step body has added some tasks to a sound chain. -/
structure Stepping (task : Nat) (attached : Prop) (ledger : List Entry) (start : Nat)
    (added : List Nat) (passed : History) (world : World) : Prop where
  begun : start ≤ world.tasks.length
  entered : passed.ledger = ledger ++ added.map .added
  aside : Aside world [task]
  tracked : Tracked start added passed world
  tail : ∀ number, world.recorder.tail = some number → start ≤ number ∨ Sound passed world number
  together : attached → ∀ number ∈ added, passed.Chain world.recorder.tail number
  bygone : Bygone task attached passed world

section Stepping

variable {task start : Nat} {attached : Prop} {ledger : List Entry} {added : List Nat}
  {passed : History} {world next : World}

/-- Whatever is added is added by the step body. -/
theorem Stepping.add {owner : Owner} {role : Role} {name : String} {body : Process}
    (stepping : Stepping task attached ledger start added passed world)
    (orderly : world.Orderly attached)
    (mine : ∀ act, world.act? = some (.task task, act) → act.Waits ∨ act.Steps)
    (acts : world.act? = some (owner, .add role name body)) :
    owner = .task task ∧ role = .step ∧ body.Obeys (bystander 0) := by
  have granted : role = .run ∨ role = .step := orderly.granted _ _ acts
  by_cases same : owner = .task task
  · rcases mine _ (same ▸ acts) with waits | ⟨apart, plain⟩
    · exact waits.elim
    · have role := granted.resolve_left apart
      exact ⟨same, role, plain role⟩
  · obtain ⟨process, running, acts'⟩ := running_of_act? acts
    have obeys := stepping.aside owner process (by simpa using same) (process?_of_running running)
    obtain ⟨notRun, notStep⟩ := obeys.allowed acts'
    exact (granted.elim notRun notStep).elim

theorem Stepping.step (stepping : Stepping task attached ledger start added passed world)
    (hosted : Hosted task passed world) (orderly : world.Orderly attached)
    (moved : world.step? = some next)
    (mine : ∀ act, world.act? = some (.task task, act) → act.Waits ∨ act.Steps) :
    ∃ added', Stepping task attached ledger start added' (passed ++ [world]) next := by
  have stepped := step?_stepped hosted.serial.wired moved
  have aside := stepping.aside.step hosted orderly moved fun owner role name body acts =>
    .inr (stepping.add orderly mine acts).2.2
  by_cases adds : ∃ owner role name body, world.act? = some (owner, .add role name body)
  · obtain ⟨owner, role, name, body, acts⟩ := adds
    obtain ⟨_, rfl, _⟩ := stepping.add orderly mine acts
    have made : world.link? = some ⟨world.tasks.length, world.recorder.session,
        world.recorder.tail, some (name, body)⟩ := by simp [World.link?, acts, hosted.looping]
    have member : ⟨world.tasks.length, world.recorder.session, world.recorder.tail,
        some (name, body)⟩ ∈ History.links (passed ++ [world]) := by
      rw [History.links_append, made]
      exact List.mem_append_right _ (by simp)
    have tail : next.recorder.tail = some world.tasks.length := by
      rw [stepped.recorder, recorderAfter, acts]
      rcases addTask_cases world name body with ⟨still, _⟩ | ⟨_, result⟩
      · rw [hosted.looping] at still
        cases still
      · simp only [result]
    have session : next.recorder.session = world.recorder.session := by
      rw [stepped.recorder, recorderAfter, acts]
      rcases addTask_cases world name body with ⟨_, result⟩ | ⟨_, result⟩ <;> simp only [result]
    refine ⟨added ++ [world.tasks.length], Nat.le_trans stepping.begun stepped.length, ?_, aside, ?_,
      fun number behind => ?_, fun still number inside => ?_,
      stepping.bygone.step hosted moved fun _ => session⟩
    · rw [History.ledger_append, stepping.entered, World.entry?, acts]
      simp [hosted.looping]
    · refine stepping.tracked.step hosted moved (fun _ => List.mem_append_left _) ?_
      intro link made' _
      rw [made] at made'
      cases made'
      exact ⟨by simp, stepping.tail⟩
    · rw [tail, Option.some.injEq] at behind
      exact .inl (behind ▸ stepping.begun)
    · rw [tail]
      rcases List.mem_append.1 inside with old | new
      · exact .before member rfl ((stepping.together still number old).append world)
      · rw [List.mem_singleton.1 new]
        exact .last
  · have beside : world.Beside := by
      refine stepping.aside.beside fun act acts => (mine act acts).elim .inl fun steps => ?_
      cases act with
      | add role name body => exact absurd ⟨_, _, _, _, acts⟩ adds
      | await => exact .inl trivial
      | _ => exact .inr steps
    refine ⟨added, Nat.le_trans stepping.begun stepped.length, ?_, aside,
      stepping.tracked.beside hosted orderly beside moved, fun number behind => ?_,
      fun still number inside => ?_, stepping.bygone.beside hosted orderly beside moved⟩
    · rw [History.ledger_append, beside.entry? orderly, stepping.entered]
      exact List.append_nil _
    · rcases beside.tail_or_sound orderly hosted moved behind with behind | sound
      · exact (stepping.tail number behind).imp_right (·.step hosted moved)
      · exact .inr sound
    · rw [(beside.chain_of_attached orderly stepped (orderly.attached still)).2]
      exact (stepping.together still number inside).append world

theorem Stepping.between (stepping : Stepping task attached ledger start added passed world)
    (hosted : Hosted task passed world) (between : world.Between besides next)
    (length : world.tasks.length ≤ next.tasks.length) :
    Stepping task attached ledger start added passed next where
  begun := Nat.le_trans stepping.begun length
  entered := stepping.entered
  aside := stepping.aside.between hosted between
  tracked := stepping.tracked.between hosted between
  tail number behind := by
    rw [recorder_of_between between] at behind
    exact (stepping.tail number behind).imp_right (·.between hosted between)
  together still := by
    rw [recorder_of_between between]
    exact stepping.together still
  bygone := stepping.bygone.between hosted between

theorem Stepping.lasts : (hosting task attached).Lasts task stepping.allows fun passed world =>
    ∃ added, Stepping task attached ledger start added passed world where
  step hosted known orderly moved _ mine := by
    obtain ⟨added, stepping⟩ := known
    exact stepping.step hosted orderly moved fun act acts => .inr (mine act acts)
  between hosted known between _ := by
    obtain ⟨added, stepping⟩ := known
    exact ⟨added, stepping.between hosted between (between.mono fun comes => comes.1).length⟩

/-- Where a run rests a step body may begin. -/
theorem Rest.enters {callable : Callable} {args : List Value} {process : Process}
    (rest : Rest task attached ledger passed world) (hosted : Hosted task passed world)
    (orderly : world.Orderly attached)
    (acts : world.act? = some (.task task, .call .step callable args))
    (moved : world.step? = some next) (result : next = world.proceed (.task task) process)
    (hosted' : Hosted task (passed ++ [world]) next) :
    Stepping task attached (ledger ++ [.called callable args]) next.tasks.length []
      (passed ++ [world]) next where
  begun := Nat.le_refl _
  entered := by
    rw [History.ledger_append, rest.ledger, World.entry?, acts]
    simp
  aside := rest.aside.step hosted orderly moved fun _ _ _ _ adds => by
    rw [acts] at adds
    cases adds
  tracked := .begin hosted'
  tail number behind := by
    rw [result] at behind
    exact .inr ((rest.sound number behind).step hosted moved)
  together _ _ none := absurd none List.not_mem_nil
  bygone := rest.bygone.step hosted moved fun _ => by rw [result]; rfl

end Stepping

/-! ## While the chain is drained -/

/-- What a step body has added is drained, up to a task of the chain. -/
structure Draining (task : Nat) (attached : Prop) (ledger : List Entry) (start : Nat)
    (added : List Nat) (last : Option Nat) (passed : History) (world : World) : Prop where
  entered : passed.ledger = ledger
  aside : Aside world [task]
  tracked : Tracked start added passed world
  late : ∀ number, last = some number → start ≤ number ∨ Sound passed world number
  linked : ∀ number, last = some number → ∃ link ∈ passed.links, link.number = number
  tail : ∀ number, world.recorder.tail = some number → last = some number ∨ Sound passed world number
  steady : attached → world.recorder.tail = last
  together : attached → ∀ number ∈ added, passed.Chain last number
  bygone : Bygone task attached passed world

section Draining

variable {task start : Nat} {attached : Prop} {ledger : List Entry} {added : List Nat}
  {last : Option Nat} {passed : History} {world next : World}

theorem Stepping.leaves {outcome : Outcome} {process : Process}
    (stepping : Stepping task attached ledger start added passed world)
    (hosted : Hosted task passed world) (orderly : world.Orderly attached)
    (acts : world.act? = some (.task task, .leave .step outcome)) (moved : world.step? = some next)
    (result : next = world.proceed (.task task) process) :
    Draining task attached
      (ledger ++ added.map .added ++ [.returned outcome world.recorder.tail]) start added
      world.recorder.tail (passed ++ [world]) next where
  entered := by
    rw [History.ledger_append, stepping.entered, World.entry?, acts]
    rfl
  aside := stepping.aside.step hosted orderly moved fun _ _ _ _ adds => by
    rw [acts] at adds
    cases adds
  tracked := stepping.tracked.step hosted moved (fun _ => id) fun link made => by
    simp [World.link?, acts] at made
  late number behind := (stepping.tail number behind).imp_right (·.step hosted moved)
  linked number behind := by
    obtain ⟨_, link, member, same, _⟩ := hosted.serial.tail.anchored number behind
    refine ⟨link, ?_, same⟩
    rw [History.links_append]
    exact List.mem_append_left _ member
  tail number behind := by
    rw [result] at behind
    exact .inl behind
  steady _ := by rw [result]; rfl
  together still number inside := (stepping.together still number inside).append world
  bygone := stepping.bygone.step hosted moved fun _ => by rw [result]; rfl

theorem Draining.lasts : (hosting task attached).Lasts task Act.Idle
    (Draining task attached ledger start added last) where
  step {passed world next} hosted draining orderly moved _ mine := by
    have beside := draining.aside.beside mine
    refine ⟨?_, ?_, draining.tracked.beside hosted orderly beside moved, fun number behind => ?_,
      fun number behind => ?_, fun number behind => ?_, fun still => ?_,
      fun still number inside => ?_, draining.bygone.beside hosted orderly beside moved⟩
    · rw [History.ledger_append, beside.entry? orderly, draining.entered]
      exact List.append_nil _
    · exact draining.aside.step hosted orderly moved fun _ _ _ _ acts =>
        absurd acts (beside.not_add orderly)
    · exact (draining.late number behind).imp_right (·.step hosted moved)
    · obtain ⟨link, member, same⟩ := draining.linked number behind
      refine ⟨link, ?_, same⟩
      rw [History.links_append]
      exact List.mem_append_left _ member
    · rcases beside.tail_or_sound orderly hosted moved behind with behind | sound
      · exact (draining.tail number behind).imp_right (·.step hosted moved)
      · exact .inr sound
    · exact (beside.chain_of_attached orderly (step?_stepped hosted.serial.wired moved)
        (orderly.attached still)).2.trans (draining.steady still)
    · exact (draining.together still number inside).append world
  between {passed world next} hosted draining between _ :=
    { entered := draining.entered
      aside := draining.aside.between hosted between
      tracked := draining.tracked.between hosted between
      late := fun number behind => (draining.late number behind).imp_right (·.between hosted between)
      linked := draining.linked
      tail := fun number behind => by
        rw [recorder_of_between between] at behind
        exact (draining.tail number behind).imp_right (·.between hosted between)
      steady := fun still => (congrArg Recorder.tail (recorder_of_between between)).trans
        (draining.steady still)
      together := draining.together
      bygone := draining.bygone.between hosted between }

end Draining

/-- A chain has ended well, and has all that was added if nobody else detached it. -/
def Cleared (attached : Prop) (passed : History) (world : World) (added : List Nat)
    (last : Option Nat) : Prop :=
  (∀ number, last = some number → ∃ value, world.outcome? number = some (.ok value)) ∧
    (attached → ∀ number ∈ added, passed.Chain last number)

/-- A run after a fault, among bystanders. -/
structure Broken (task : Nat) (attached : Prop) (ledger : List Entry) (passed : History)
    (world : World) : Prop where
  ledger : passed.ledger = ledger
  aside : Aside world [task]
  bygone : Bygone task attached passed world

section Drain

variable {task start : Nat} {attached : Prop} {ledger : List Entry} {added : List Nat}
  {last : Option Nat} {passed : History} {world next : World} {wanted : Outcome → Assertion}

/-- A task ends well only behind one that has. -/
theorem ready_of_ok {link : Link} {value : Value} (serial : Serial passed world)
    (member : link ∈ passed.links) (work : link.work.isSome)
    (ended : world.outcome? link.number = some (.ok value)) : link.Ready world := by
  have stage := serial.staged link member _ (process?_of_outcome serial.wired ended)
  generalize passed.said link.number = lines at stage
  generalize equal : Process.done (.ok value) = process at stage
  cases stage with
  | waits => cases equal
  | joins => cases equal
  | checks => cases equal
  | opens => cases equal
  | poisoned => cases equal
  | works _ ready => exact ready
  | reported => cases equal
  | stands => cases equal
  | stood _ none => simp [none] at work

/-- When the last task of a chain has ended well, all of them have. -/
theorem Cleared.drained (cleared : Cleared attached passed world added last)
    (serial : Serial passed world) : passed.Drained attached world added last := by
  refine ⟨fun number chain => ?_, cleared.2⟩
  have well := cleared.1
  clear cleared
  induction chain with
  | last => exact well _ rfl
  | before member work _ ih =>
    obtain ⟨value, ended⟩ := well _ rfl
    exact ih (ready_of_ok serial member work ended)

theorem Cleared.lasts : (hosting task attached).Lasts task (fun _ => True) fun passed world =>
    Cleared attached passed world added last where
  step hosted cleared _ moved _ _ := by
    refine ⟨fun number same => ?_, fun still number inside =>
      (cleared.2 still number inside).append _⟩
    obtain ⟨value, ended⟩ := cleared.1 number same
    exact ⟨value, (step?_stepped hosted.serial.wired moved).settled hosted.serial.wired ended⟩
  between hosted cleared between _ := by
    refine ⟨fun number same => ?_, cleared.2⟩
    obtain ⟨value, ended⟩ := cleared.1 number same
    exact ⟨value, outcome?_of_between hosted between ended⟩

theorem Sunk.lasts {fault : Fault} : (hosting task attached).Lasts task (fun _ => True)
    fun passed world => passed.Sunk world added last fault where
  step hosted sunk _ moved _ _ := by
    obtain ⟨number, inside, chain, begun, ended⟩ := sunk
    refine ⟨number, inside, chain.append _, ?_,
      (step?_stepped hosted.serial.wired moved).settled hosted.serial.wired ended⟩
    rw [History.said_append]
    exact List.append_ne_nil_of_left_ne_nil begun _
  between hosted sunk between _ := by
    obtain ⟨number, inside, chain, begun, ended⟩ := sunk
    exact ⟨number, inside, chain, begun, outcome?_of_between hosted between ended⟩

theorem Broken.lasts : (hosting task attached).Lasts task Act.Idle (Broken task attached ledger) where
  step {passed world next} hosted broken orderly moved _ mine := by
    have beside := broken.aside.beside mine
    refine ⟨?_, broken.aside.step hosted orderly moved fun _ _ _ _ acts =>
      absurd acts (beside.not_add orderly), broken.bygone.beside hosted orderly beside moved⟩
    rw [History.ledger_append, beside.entry? orderly, broken.ledger]
    exact List.append_nil _
  between hosted broken between _ := ⟨broken.ledger, broken.aside.between hosted between,
    broken.bygone.between hosted between⟩

/-- What comes of a chain whose last task has ended. -/
theorem Draining.ends {number : Nat} {outcome : Outcome}
    (draining : Draining task attached ledger start added (some number) passed world)
    (hosted : Hosted task passed world) (ended : world.outcome? number = some outcome) :
    (∃ value, outcome = .ok value) ∧ Rest task attached ledger passed world ∧
      Cleared attached passed world added (some number) ∨
    ∃ fault, outcome = .error (.fault fault) ∧ Broken task attached ledger passed world ∧
      passed.Sunk world added (some number) fault := by
  match outcome with
  | .ok value =>
    refine .inl ⟨⟨value, rfl⟩, ⟨⟨draining.entered, draining.aside, fun other behind => ?_,
      draining.bygone⟩, fun still other behind => ?_⟩, ?_, draining.together⟩
    · rcases draining.tail other behind with same | sound
      · cases same
        exact .inl ⟨value, ended⟩
      · exact sound
    · cases (draining.steady still).symm.trans behind
      rw [ended]
      rfl
    · rintro _ ⟨⟩
      exact ⟨value, ended⟩
  | .error (.fault fault) =>
    refine .inr ⟨fault, rfl, ⟨draining.entered, draining.aside, draining.bygone⟩, ?_⟩
    exact draining.tracked.sunk hosted.serial (draining.late number rfl)
      (draining.linked number rfl) ended
  | .error .cancelled => exact absurd ended (hosted.serial.uncancelled number)

/-- The run waits for the chain behind a step. -/
theorem meets_drain_step : (hosting task attached).Meets task wanted
    (Setting.Held task fun passed world => world.recorder.tail = last ∧
      Draining task attached ledger start added last passed world)
    Recorder.drainNow fun result passed world =>
      result = .ok () ∧ Rest task attached ledger passed world ∧ Cleared attached passed world added last ∨
      ∃ fault, result = .error (.fault fault) ∧ Broken task attached ledger passed world ∧
        passed.Sunk world added last fault := by
  have lasts : (hosting task attached).Lasts task Act.Idle
      (Draining task attached ledger start added last) := Draining.lasts
  have asks : (hosting task attached).Meets task wanted
      (Setting.Held task fun passed world => world.recorder.tail = last ∧
        Draining task attached ledger start added last passed world)
      (Program.ask .tail) fun result passed world => result = .ok last ∧
        Draining task attached ledger start added last passed world := by
    refine .ask (fun _ => .held rfl (by simp [Act.Waits]) fun hosted here between holds' => ?_) ?_
    · exact ⟨(congrArg Recorder.tail (recorder_of_between between)).trans here.1,
        lasts.between hosted here.2 between holds'⟩
    · intro passed world next process hosted held orderly acts moved result hosted'
      obtain ⟨_, tail, draining⟩ := held
      refine ⟨congrArg Except.ok tail,
        lasts.step hosted draining orderly moved hosted' fun act known => ?_⟩
      rw [acts] at known
      cases known
      exact .inr trivial
  refine .bind asks (fun tail => ?_) (by rintro _ _ _ _ ⟨⟨⟩, _⟩)
  refine .and_before fun same => ?_
  cases same
  cases last with
  | none =>
    refine (Setting.Meets.pure () _).weaken (fun _ draining => .inl ⟨rfl, ?_, ?_, ?_⟩)
      fun _ here => here
    · refine ⟨⟨draining.entered, draining.aside, fun number behind => ?_, draining.bygone⟩,
        fun still number behind => ?_⟩
      · exact (draining.tail number behind).resolve_left (by rintro ⟨⟩)
      · cases (draining.steady still).symm.trans behind
    · rintro _ ⟨⟩
    · exact draining.together
  | some number =>
    have settles : (hosting task attached).Meets task wanted
        (Draining task attached ledger start added (some number))
        (Recorder.settled number) fun outcome passed world =>
          Draining task attached ledger start added (some number) passed world ∧
            world.outcome? number = some outcome := by
      refine .settled (lasts.mono ?_).spans fun hosted draining => ?_
      · rintro act (waits | rfl)
        · exact .inl waits
        · exact .inr trivial
      · obtain ⟨link, member, same⟩ := draining.linked number rfl
        exact same ▸ hosted.serial.inside link member
    refine .bind (settles.weaken (fun _ here => here) fun hosted here =>
      here.1.ends hosted here.2) (fun _ => ?_) ?_
    · refine (Setting.Meets.pure () _).weaken (fun _ here => ?_) fun _ here => here
      rcases here with ⟨_, here⟩ | ⟨_, ⟨⟩, _⟩
      exact .inl ⟨rfl, here⟩
    · rintro failure passed world _ (⟨⟨_, ⟨⟩⟩, _⟩ | ⟨fault, ⟨⟩, here⟩)
      exact .inr ⟨fault, rfl, here⟩

end Drain

end FeatureRunner
