import FeatureRunner.Proofs.Suite.Aside

/-!
The events that a run emits, itself or through two tasks of the chain. Such a task emits once, after
the task before it has ended well, so the events come in order and none is lost.
-/

namespace FeatureRunner
open FeatureRunner.World

/-- Among bystanders, with a sound chain. -/
structure Amid (task : Nat) (attached : Prop) (ledger : List Entry) (passed : History)
    (world : World) : Prop where
  ledger : passed.ledger = ledger
  aside : Aside world [task]
  sound : ∀ number, world.recorder.tail = some number → Sound passed world number
  bygone : Bygone task attached passed world

/-- Besides, the chain has ended if nobody else detached it. -/
structure Rest (task : Nat) (attached : Prop) (ledger : List Entry) (passed : History)
    (world : World) : Prop extends Amid task attached ledger passed world where
  closed : attached → ∀ number, world.recorder.tail = some number → (world.outcome? number).isSome

/-- What a task may do while its run rests. -/
abbrev Act.Idle (act : Act) : Prop :=
  act.Waits ∨ act.Aside 0

section Frames

variable {task number : Nat} {attached : Prop} {passed : History} {world next : World}

theorem recorder_of_between (between : world.Between besides next) :
    next.recorder = world.recorder :=
  (between.mono fun comes => comes.1).recorder

theorem Aside.mono {busy busy' : List Nat} (aside : Aside world busy)
    (more : ∀ number ∈ busy, number ∈ busy') : Aside world busy' :=
  fun owner process apart => aside owner process fun number member => apart number (more number member)

/-- Bystanders leave the chain at the task that it ends with, or sound. -/
theorem World.Beside.tail_or_sound (beside : world.Beside) (orderly : world.Orderly attached)
    (hosted : Hosted task passed world) (moved : world.step? = some next)
    (behind : next.recorder.tail = some number) :
    world.recorder.tail = some number ∨ Sound (passed ++ [world]) next number := by
  have stepped := step?_stepped hosted.serial.wired moved
  rcases beside.tail orderly stepped with same | none | ⟨link, made, work, tail⟩
  · exact .inl (same ▸ behind)
  · rw [none] at behind
    cases behind
  · rw [tail, Option.some.injEq] at behind
    refine .inr (.inr ⟨link, ?_, behind, work⟩)
    rw [History.links_append]
    exact List.mem_append_right _ (Option.mem_toList.2 made)

/-- What a step answers or calls changes nothing of the chain. -/
theorem recorder_of_ask {owner : Owner} {request : Request} (hosted : Hosted task passed world)
    (moved : world.step? = some next) (acts : world.act? = some (owner, .ask request))
    (apart : ∀ session line, request ≠ .record session line)
    (apart' : ∀ role call, request ≠ .recorder role call) :
    next.recorder = world.recorder := by
  rw [(step?_stepped hosted.serial.wired moved).recorder, recorderAfter, acts]
  cases request with
  | record session line => exact absurd rfl (apart session line)
  | recorder role call => exact absurd rfl (apart' role call)
  | _ => rfl

theorem Amid.lasts (task : Nat) (attached : Prop) (ledger : List Entry) :
    (hosting task attached).Lasts task Act.Idle (Amid task attached ledger) where
  step {passed world next} hosted rest orderly moved _ mine := by
    have beside := rest.aside.beside mine
    refine ⟨?_, ?_, fun number behind => ?_, rest.bygone.beside hosted orderly beside moved⟩
    · rw [History.ledger_append, beside.entry? orderly, rest.ledger]
      exact List.append_nil _
    · exact rest.aside.step hosted orderly moved fun _ _ _ _ acts =>
        absurd acts (beside.not_add orderly)
    · rcases beside.tail_or_sound orderly hosted moved behind with behind | sound
      · exact (rest.sound number behind).step hosted moved
      · exact sound
  between {passed world next} hosted rest between _ := by
    refine ⟨rest.ledger, rest.aside.between hosted between, fun number behind => ?_,
      rest.bygone.between hosted between⟩
    rw [recorder_of_between between] at behind
    exact (rest.sound number behind).between hosted between

theorem isSome_of_step (hosted : Hosted task passed world) (moved : world.step? = some next)
    (ended : (world.outcome? number).isSome) : (next.outcome? number).isSome := by
  obtain ⟨outcome, ended⟩ := Option.isSome_iff_exists.1 ended
  rw [(step?_stepped hosted.serial.wired moved).settled hosted.serial.wired ended]
  rfl

theorem Rest.lasts (task : Nat) (attached : Prop) (ledger : List Entry) :
    (hosting task attached).Lasts task Act.Idle (Rest task attached ledger) where
  step {passed world next} hosted rest orderly moved hosted' mine := by
    refine ⟨(Amid.lasts task attached ledger).step hosted rest.toAmid orderly moved hosted' mine,
      fun still number behind => ?_⟩
    have stepped := step?_stepped hosted.serial.wired moved
    rw [((rest.aside.beside mine).chain_of_attached orderly stepped (orderly.attached still)).2]
      at behind
    exact isSome_of_step hosted moved (rest.closed still number behind)
  between {passed world next} hosted rest between hosted' := by
    refine ⟨(Amid.lasts task attached ledger).between hosted rest.toAmid between hosted',
      fun still number behind => ?_⟩
    rw [recorder_of_between between] at behind
    obtain ⟨outcome, ended⟩ := Option.isSome_iff_exists.1 (rest.closed still number behind)
    rw [outcome?_of_between hosted between ended]
    rfl

theorem suits_bystander (task : Nat) (attached : Prop) : (hosting task attached).Suits task (bystander 0) :=
  suits (bystander_closed 0) rfl rfl fun _ _ => trivial

end Frames

section Emit

variable {task : Nat} {attached : Prop} {wanted : Outcome → Assertion} {ledger : List Entry}

theorem meets_notifyAll (args : List Value) (subscribers : List Subscriber) :
    (hosting task attached).Meets task wanted (Rest task attached ledger) (notifyAll args subscribers)
      fun result passed world => result = .ok () ∧ Rest task attached ledger passed world :=
  .lawful (suits_bystander task attached) ((Rest.lasts task attached ledger).mono fun _ => .inr)
    (notifyAll_ensures modest_listeners (fun _ known => known) args subscribers
      fun _ _ => trivial)

/-- The run itself emits an event. -/
theorem meets_emit (event : String) (args : List Value) :
    (hosting task attached).Meets task wanted (Rest task attached ledger) (emitFor .run event args)
      fun result passed world => result = .ok () ∧
        Rest task attached (ledger ++ [.emitted event args]) passed world := by
  have asks : (hosting task attached).Meets task wanted (Rest task attached ledger)
      (Program.ask (.subscribers .run event args)) fun result passed world =>
        (∃ subscribers, result = .ok subscribers) ∧
          Rest task attached (ledger ++ [.emitted event args]) passed world := by
    refine .ask (fun _ => (Rest.lasts task attached ledger).kept fun _ _ => .inl) ?_
    intro passed world next process hosted rest orderly acts moved result _
    have same := recorder_of_ask hosted moved acts (by simp) (by simp)
    refine ⟨⟨_, rfl⟩, ⟨?_, ?_, fun number behind => ?_, ?_⟩, fun still number behind => ?_⟩
    · rw [History.ledger_append, rest.ledger, World.entry?, acts]
      rfl
    · refine rest.aside.step hosted orderly moved fun _ _ _ _ adds => ?_
      rw [acts] at adds
      cases adds
    · rw [same] at behind
      exact (rest.sound number behind).step hosted moved
    · exact rest.bygone.step hosted moved fun _ => by rw [same]
    · rw [same] at behind
      exact isSome_of_step hosted moved (rest.closed still number behind)
  refine .bind asks (fun subscribers => ?_) (by rintro _ _ _ _ ⟨⟨_, ⟨⟩⟩, _⟩)
  exact (meets_notifyAll args subscribers).weaken (fun _ here => here.2) fun _ here => here

end Emit

/-! ## Tasks that emit an event -/

/-- Telling some subscribers and ending well. -/
def telling (args : List Value) (subscribers : List Subscriber) : Process :=
  Program.toProcess do
    notifyAll args subscribers
    return .null

/-- The task has emitted its event and ends well without another. -/
def Said (number : Nat) (process : Process) : Prop :=
  process.Keeps (bystander number) (Process.Ended fun outcome => ∃ value, outcome = .ok value)

theorem telling_said (number session : Nat) (args : List Value) (subscribers : List Subscriber) :
    Said number ((telling args subscribers).andThen (Recorder.report session)) := by
  have tells : (telling args subscribers).Keeps (bystander number)
      (Process.Ended (· = .ok .null)) := by
    have told : (notifyAll args subscribers).Ensures (bystander number) (· = .ok ()) :=
      notifyAll_ensures modest_listeners (fun _ known => known) args subscribers fun _ _ => trivial
    exact Program.Ensures.toProcess (told.bind (fun _ _ => .pure rfl) (by simp))
  refine tells.andThen fun outcome ended => ?_
  subst ended
  exact .stop ⟨.null, rfl⟩

/-- A task of the chain that has not emitted its event yet. -/
structure Unsaid (link : Link) (event : String) (args : List Value) (passed : History)
    (process : Process) : Prop where
  work : ∃ name, link.work = some (name, announcement event args)
  early : passed.said link.number = [] ∨
    process = (announcement event args).andThen (Recorder.report link.session)

section Emitting

variable {task : Nat} {attached : Prop} {passed : History} {world next : World} {link : Link} {event : String}
  {args : List Value} {process : Process}

theorem record_of_writes? {number : Nat} {line : String}
    (writes : world.writes? number = some line) :
    ∃ session, world.act? = some (.task number, .ask (.record session line)) := by
  unfold World.writes? at writes
  split at writes
  · rename_i speaker request acts
    split at writes
    · rename_i same
      subst same
      cases request with
      | record session written =>
        cases writes
        exact ⟨session, acts⟩
      | _ => cases writes
    · cases writes
  · cases writes

/-- Before its work a task of the chain does what a bystander may. -/
theorem idle_of_silent (serial : Serial passed world) (member : link ∈ passed.links)
    (silent : passed.said link.number = []) {act : Act}
    (acts : world.act? = some (.task link.number, act)) : act.Idle := by
  obtain ⟨process, running, acts⟩ := running_of_act? acts
  have stage := serial.staged link member process (process?_of_running running)
  rw [silent] at stage
  cases stage with
  | waits => cases acts; exact .inr trivial
  | joins => cases acts; exact .inl trivial
  | checks => cases acts; exact .inr trivial
  | opens => cases acts; exact .inr trivial
  | poisoned => cases acts
  | stands => cases acts; exact .inl trivial
  | stood => cases acts

/-- A task that emits an event comes after the end of the one before it. -/
theorem Unsaid.ready (unsaid : Unsaid link event args passed process)
    (serial : Serial passed world) (member : link ∈ passed.links)
    (left : world.process? (.task link.number) = some process)
    (acts : world.act? = some (.task link.number, .ask (.subscribers .run event args))) :
    link.Ready world := by
  have begun : process = (announcement event args).andThen (Recorder.report link.session) := by
    rcases unsaid.early with silent | emits
    · rcases idle_of_silent serial member silent acts with waits | apart
      · exact waits.elim
      · exact absurd rfl apart
    · exact emits
  have stage := serial.staged link member process left
  subst begun
  generalize passed.said link.number = said at stage
  generalize equal : (announcement event args).andThen (Recorder.report link.session) = process
    at stage
  cases stage with
  | works work ready => exact ready
  | waits => cases equal
  | joins => cases equal
  | checks => cases equal
  | opens => cases equal
  | poisoned => cases equal
  | reported => cases equal
  | stands => cases equal
  | stood => cases equal

/-- A task behind one that does not fail does not end before it has emitted its event. -/
theorem Unsaid.unsettled (unsaid : Unsaid link event args passed process)
    (serial : Serial passed world) (member : link ∈ passed.links)
    (left : world.process? (.task link.number) = some process)
    (unfailed : ∀ number, link.previous = some number →
      ∀ failure, world.outcome? number ≠ some (.error failure)) :
    world.outcome? link.number = none := by
  cases ended : world.outcome? link.number with
  | none => rfl
  | some outcome =>
    rw [process?_of_outcome serial.wired ended, Option.some.injEq] at left
    subst left
    rcases unsaid.early with silent | emits
    · have stage := serial.staged link member _ (process?_of_outcome serial.wired ended)
      rw [silent] at stage
      obtain ⟨name, work⟩ := unsaid.work
      cases stage with
      | poisoned behind _ failed => exact absurd failed (unfailed _ behind _)
      | stood _ none => simp [work] at none
    · cases emits

/-- A step takes a task on its way, or lets it emit its event. -/
theorem Unsaid.step (unsaid : Unsaid link event args passed process)
    (hosted : Hosted task passed world) (member : link ∈ passed.links)
    (left : world.process? (.task link.number) = some process)
    (moved : world.step? = some next) :
    ∃ after, next.process? (.task link.number) = some after ∧
      (Unsaid link event args (passed ++ [world]) after ∧
        (∀ act, world.act? = some (.task link.number, act) → act.Idle) ∨
      Said link.number after ∧
        world.act? = some (.task link.number, .ask (.subscribers .run event args))) := by
  have wired := hosted.serial.wired
  obtain ⟨after, left', evolves, old⟩ := (hosting task True).evolves_of_step hosted left moved
  refine ⟨after, left', ?_⟩
  rcases unsaid.early with silent | rfl
  · refine .inl ⟨⟨unsaid.work, ?_⟩, fun act => idle_of_silent hosted.serial member silent⟩
    rw [History.said_append, silent, List.nil_append]
    cases writes : world.writes? link.number with
    | none => exact .inl rfl
    | some line =>
      right
      obtain ⟨session, acts⟩ := record_of_writes? writes
      obtain ⟨name, work⟩ := unsaid.work
      obtain ⟨_, running, acts'⟩ := running_of_act? acts
      cases Option.some.inj (left.symm.trans (process?_of_running running))
      have stage := hosted.serial.staged link member process left
      rw [silent] at stage
      cases stage with
      | waits => cases acts'
      | joins => cases acts'
      | checks => cases acts'
      | opens known =>
        cases work.symm.trans known
        cases evolves.goes left old with
        | passes waits => exact (waits _ acts).elim
        | asks => rfl
      | poisoned => cases acts'
      | stands => cases acts'
      | stood => cases acts'
  · cases evolves.goes left old with
    | passes waits passes =>
      cases passes
      exact .inl ⟨⟨unsaid.work, .inr rfl⟩, fun act acts => .inl (waits act acts)⟩
    | asks acts => exact .inr ⟨telling_said _ _ _ _, acts⟩

theorem Unsaid.between (unsaid : Unsaid link event args passed process)
    (hosted : Hosted task passed world)
    (left : world.process? (.task link.number) = some process)
    (between : world.Between besides next) :
    ∃ after, next.process? (.task link.number) = some after ∧
      Unsaid link event args passed after := by
  obtain ⟨after, left', passes⟩ := (hosting task True).passes_of_between hosted left between
  refine ⟨after, left', unsaid.work, unsaid.early.imp_right ?_⟩
  rintro rfl
  cases passes
  rfl

variable {number : Nat}

theorem Said.obeys (said : Said number process) : process.Obeys (bystander number) := by
  refine said.trans fun process ended => ?_
  obtain ⟨outcome, rfl, value, rfl⟩ := ended.eq_done
  exact .stop (uncancelled_ok value)

theorem Said.ok_of_done {outcome : Outcome} (said : Said number (.done outcome)) :
    ∃ value, outcome = .ok value := by
  cases said with
  | stop ended => exact ended

theorem Said.step (said : Said number process) (hosted : Hosted task passed world)
    (orderly : world.Orderly attached) (left : world.process? (.task number) = some process)
    (moved : world.step? = some next) :
    ∃ after, next.process? (.task number) = some after ∧ Said number after ∧
      ∀ act, world.act? = some (.task number, act) → act.Idle := by
  obtain ⟨after, left', evolves, old⟩ := (hosting task attached).evolves_of_step hosted left moved
  have mine (other : Process) (known : world.process? (.task number) = some other) :
      Said number other := Option.some.inj (left.symm.trans known) ▸ said
  refine ⟨after, left', ?_, fun act acts => ?_⟩
  · refine evolves.keeps (hosted.serial.step moved).uncancelled (bystander_closed _)
      (fun _ => granted_of_waits) (fun act acts => orderly.granted _ _ acts)
      (fun request _ => hosted.serial.uncancelled.fair request) (fun _ _ _ _ _ => trivial) nofun
      (fun same => Nat.ne_of_lt old (Owner.task.inj same)) mine ?_
    intro other _ ended act acts
    rw [ended.act?] at acts
    cases acts
  · obtain ⟨other, running, acts⟩ := running_of_act? acts
    refine Act.Aside.beside ((mine other (process?_of_running running)).allowed (fun ended => ?_) acts)
    rw [ended.act?] at acts
    cases acts

theorem Said.between (said : Said number process) (hosted : Hosted task passed world)
    (left : world.process? (.task number) = some process) (between : world.Between besides next) :
    ∃ after, next.process? (.task number) = some after ∧ Said number after := by
  obtain ⟨after, left', passes⟩ := (hosting task True).passes_of_between hosted left between
  refine ⟨after, left', passes.keeps ((hosting task True).between hosted between).serial.uncancelled
    (bystander_closed _) (fun _ => granted_of_waits) said fun ended act acts => ?_⟩
  rw [ended.act?] at acts
  cases acts

end Emitting

/-! ## Two tasks that emit in turn -/

/-- A task of the chain has been added that is to emit an event. -/
structure Fired (task : Nat) (attached : Prop) (ledger : List Entry) (link : Link) (event : String)
    (args : List Value) (passed : History) (world : World) : Prop where
  member : link ∈ passed.links
  ledger : passed.ledger = ledger
  aside : Aside world [task, link.number]
  sound : ∀ number, link.previous = some number → Sound passed world number
  tail : world.recorder.tail = some link.number
  bygone : Bygone task attached passed world
  unsaid : ∃ process, world.process? (.task link.number) = some process ∧
    Unsaid link event args passed process

/-- How far two tasks have come that emit an event each. -/
inductive Turn (ledger : List Entry) (first second : Link) (event event' : String)
    (args args' : List Value) (passed : History) (process process' : Process) : Prop
  | neither (entered : passed.ledger = ledger) (unsaid : Unsaid first event args passed process)
      (unsaid' : Unsaid second event' args' passed process')
  | one (entered : passed.ledger = ledger ++ [.emitted event args])
      (said : Said first.number process) (unsaid : Unsaid second event' args' passed process')
  | both (entered : passed.ledger = ledger ++ [.emitted event args, .emitted event' args'])
      (said : Said first.number process) (said' : Said second.number process')

structure Firing (task : Nat) (attached : Prop) (ledger : List Entry) (first second : Link)
    (event event' : String) (args args' : List Value) (passed : History) (world : World) :
    Prop where
  member : first ∈ passed.links
  member' : second ∈ passed.links
  behind : second.previous = some first.number
  aside : Aside world [task, first.number, second.number]
  sound : ∀ number, first.previous = some number → Sound passed world number
  tail : ∀ number, world.recorder.tail = some number →
    number = second.number ∨ Sound passed world number
  steady : attached → world.recorder.tail = some second.number
  bygone : Bygone task attached passed world
  turn : ∃ process process', world.process? (.task first.number) = some process ∧
    world.process? (.task second.number) = some process' ∧
    Turn ledger first second event event' args args' passed process process'

section Firing

variable {task : Nat} {attached : Prop} {ledger : List Entry} {first second : Link} {event event' : String}
  {args args' : List Value} {passed : History} {world next : World}

/-- Beside a task and others that do what a bystander may, everything is done by bystanders. -/
theorem beside_of_aside {busy : List Nat} (aside : Aside world busy)
    (mine : ∀ number ∈ busy, ∀ act, world.act? = some (.task number, act) → act.Idle) :
    world.Beside := by
  intro owner act acts
  by_cases member : ∃ number ∈ busy, owner = .task number
  · obtain ⟨number, member, rfl⟩ := member
    exact mine number member act acts
  · obtain ⟨process, running, acts'⟩ := running_of_act? acts
    have obeys := aside owner process (fun number inside same => member ⟨number, inside, same⟩)
      (process?_of_running running)
    exact Act.Aside.beside (obeys.allowed acts')

theorem Firing.step
    (firing : Firing task attached ledger first second event event' args args' passed world)
    (hosted : Hosted task passed world) (orderly : world.Orderly attached)
    (moved : world.step? = some next)
    (mine : ∀ act, world.act? = some (.task task, act) → act.Idle) :
    Firing task attached ledger first second event event' args args' (passed ++ [world]) next := by
  obtain ⟨process, process', left, left', turn⟩ := firing.turn
  have serial := hosted.serial
  have grows {link : Link} (member : link ∈ passed.links) :
      link ∈ History.links (passed ++ [world]) := by
    rw [History.links_append]
    exact List.mem_append_left _ member
  have keep (still : ∀ owner role name body, world.act? ≠ some (owner, .add role name body))
      (tail : ∀ number, next.recorder.tail = some number →
        world.recorder.tail = some number ∨ Sound (passed ++ [world]) next number)
      (same : attached → next.recorder.session = world.recorder.session ∧
        next.recorder.tail = world.recorder.tail)
      {after after' : Process} (left : next.process? (.task first.number) = some after)
      (left' : next.process? (.task second.number) = some after')
      (turn : Turn ledger first second event event' args args' (passed ++ [world]) after after') :
      Firing task attached ledger first second event event' args args' (passed ++ [world]) next := by
    refine ⟨grows firing.member, grows firing.member', firing.behind, ?_, ?_, ?_,
      fun still => (same still).2.trans (firing.steady still),
      firing.bygone.step hosted moved fun still => (same still).1, after, after', left, left', turn⟩
    · exact firing.aside.step hosted orderly moved fun _ _ _ _ acts =>
        absurd acts (still _ _ _ _)
    · exact fun number behind => (firing.sound number behind).step hosted moved
    · intro number behind
      rcases tail number behind with behind | sound
      · exact (firing.tail number behind).imp_right (·.step hosted moved)
      · exact .inr sound
  -- A step is a bystander's, or one of the two emits its event.
  have quiet (idle : ∀ act, world.act? = some (.task first.number, act) → act.Idle)
      (idle' : ∀ act, world.act? = some (.task second.number, act) → act.Idle) : world.Beside :=
    beside_of_aside firing.aside (by simpa using ⟨mine, idle, idle'⟩)
  have still (beside : world.Beside) :
      History.ledger (passed ++ [world]) = passed.ledger := by
    rw [History.ledger_append, beside.entry? orderly]
    exact List.append_nil _
  have still' (beside : world.Beside) (kept : attached) :=
    beside.chain_of_attached orderly (step?_stepped serial.wired moved) (orderly.attached kept)
  have emits {number : Nat} {event : String} {args : List Value}
      (acts : world.act? = some (.task number, .ask (.subscribers .run event args))) :
      History.ledger (passed ++ [world]) = passed.ledger ++ [.emitted event args] ∧
      (∀ owner role name body, world.act? ≠ some (owner, .add role name body)) ∧
      next.recorder = world.recorder := by
    refine ⟨?_, fun _ _ _ _ adds => ?_, recorder_of_ask hosted moved acts (by simp) (by simp)⟩
    · rw [History.ledger_append, World.entry?, acts]
      rfl
    · rw [acts] at adds
      cases adds
  cases turn with
  | neither entered unsaid unsaid' =>
    obtain ⟨after, left₁, step⟩ := unsaid.step hosted firing.member left moved
    obtain ⟨after', left₁', step'⟩ := unsaid'.step hosted firing.member' left' moved
    rcases step' with ⟨unsaid', idle'⟩ | ⟨_, acts'⟩
    · rcases step with ⟨unsaid, idle⟩ | ⟨said, acts⟩
      · have beside := quiet idle idle'
        exact keep (fun _ _ _ _ => beside.not_add orderly)
          (fun _ => beside.tail_or_sound orderly hosted moved) (still' beside) left₁ left₁'
          (.neither ((still beside).trans entered) unsaid unsaid')
      · obtain ⟨entry, unadded, same⟩ := emits acts
        exact keep unadded (fun _ behind => .inl (same ▸ behind)) (fun _ => by simp [same]) left₁
          left₁' (.one (by rw [entry, entered]) said unsaid')
    · obtain ⟨value, ended⟩ := unsaid'.ready serial firing.member' left' acts' _ firing.behind
      have unsettled := unsaid.unsettled serial firing.member left fun number behind =>
        (firing.sound number behind).unfailed serial
      rw [unsettled] at ended
      cases ended
  | one entered said unsaid' =>
    obtain ⟨after, left₁, said, idle⟩ := said.step hosted orderly left moved
    obtain ⟨after', left₁', step'⟩ := unsaid'.step hosted firing.member' left' moved
    rcases step' with ⟨unsaid', idle'⟩ | ⟨said', acts'⟩
    · have beside := quiet idle idle'
      exact keep (fun _ _ _ _ => beside.not_add orderly)
        (fun _ => beside.tail_or_sound orderly hosted moved) (still' beside) left₁ left₁'
        (.one ((still beside).trans entered) said unsaid')
    · obtain ⟨entry, unadded, same⟩ := emits acts'
      exact keep unadded (fun _ behind => .inl (same ▸ behind)) (fun _ => by simp [same]) left₁
        left₁' (.both (by simp [entry, entered]) said said')
  | both entered said said' =>
    obtain ⟨after, left₁, said, idle⟩ := said.step hosted orderly left moved
    obtain ⟨after', left₁', said', idle'⟩ := said'.step hosted orderly left' moved
    have beside := quiet idle idle'
    exact keep (fun _ _ _ _ => beside.not_add orderly)
      (fun _ => beside.tail_or_sound orderly hosted moved) (still' beside) left₁ left₁'
      (.both ((still beside).trans entered) said said')

theorem Firing.between
    (firing : Firing task attached ledger first second event event' args args' passed world)
    (hosted : Hosted task passed world) (between : world.Between besides next) :
    Firing task attached ledger first second event event' args args' passed next where
  member := firing.member
  member' := firing.member'
  behind := firing.behind
  aside := firing.aside.between hosted between
  sound number behind := (firing.sound number behind).between hosted between
  tail number behind := by
    rw [recorder_of_between between] at behind
    exact (firing.tail number behind).imp_right (·.between hosted between)
  steady still := (congrArg Recorder.tail (recorder_of_between between)).trans (firing.steady still)
  bygone := firing.bygone.between hosted between
  turn := by
    obtain ⟨process, process', left, left', turn⟩ := firing.turn
    cases turn with
    | neither entered unsaid unsaid' =>
      obtain ⟨after, left, unsaid⟩ := unsaid.between hosted left between
      obtain ⟨after', left', unsaid'⟩ := unsaid'.between hosted left' between
      exact ⟨after, after', left, left', .neither entered unsaid unsaid'⟩
    | one entered said unsaid' =>
      obtain ⟨after, left, said⟩ := said.between hosted left between
      obtain ⟨after', left', unsaid'⟩ := unsaid'.between hosted left' between
      exact ⟨after, after', left, left', .one entered said unsaid'⟩
    | both entered said said' =>
      obtain ⟨after, left, said⟩ := said.between hosted left between
      obtain ⟨after', left', said'⟩ := said'.between hosted left' between
      exact ⟨after, after', left, left', .both entered said said'⟩

theorem Firing.lasts : (hosting task attached).Lasts task Act.Idle
    (Firing task attached ledger first second event event' args args') where
  step hosted firing orderly moved _ mine := firing.step hosted orderly moved mine
  between hosted firing between _ := firing.between hosted between

/-- When the second task has ended, both events have been emitted. -/
theorem Firing.rest {outcome : Outcome}
    (firing : Firing task attached ledger first second event event' args args' passed world)
    (hosted : Hosted task passed world)
    (ended : world.outcome? second.number = some outcome) : (∃ value, outcome = .ok value) ∧
      Rest task attached (ledger ++ [.emitted event args, .emitted event' args']) passed world := by
  have serial := hosted.serial
  obtain ⟨process, process', left, left', turn⟩ := firing.turn
  have settled (unsaid : Unsaid second event' args' passed process')
      (unfailed : ∀ failure, world.outcome? first.number ≠ some (.error failure)) : False := by
    have unsettled := unsaid.unsettled serial firing.member' left' fun number behind => by
      cases firing.behind.symm.trans behind
      exact unfailed
    rw [unsettled] at ended
    cases ended
  cases turn with
  | neither entered unsaid unsaid' =>
    have unsettled := unsaid.unsettled serial firing.member left fun number behind =>
      (firing.sound number behind).unfailed serial
    exact (settled unsaid' (by simp [unsettled])).elim
  | one entered said unsaid' =>
    refine (settled unsaid' fun failure failed => ?_).elim
    rw [process?_of_outcome serial.wired failed, Option.some.injEq] at left
    subst left
    obtain ⟨value, same⟩ := said.ok_of_done
    cases same
  | both entered said said' =>
    have done := process?_of_outcome serial.wired ended
    obtain rfl := Option.some.inj (left'.symm.trans done)
    obtain ⟨value, rfl⟩ := said'.ok_of_done
    refine ⟨⟨value, rfl⟩, ⟨entered, fun owner other apart known => ?_, fun number behind => ?_,
      firing.bygone⟩, fun still number behind => ?_⟩
    · by_cases mine : owner = .task first.number
      · subst mine
        cases Option.some.inj (left.symm.trans known)
        exact said.obeys
      by_cases mine' : owner = .task second.number
      · subst mine'
        cases Option.some.inj (left'.symm.trans known)
        exact said'.obeys
      refine firing.aside owner other ?_ known
      simpa using ⟨by simpa using apart, mine, mine'⟩
    · rcases firing.tail number behind with rfl | sound
      · exact .inl ⟨value, ended⟩
      · exact sound
    · cases (firing.steady still).symm.trans behind
      rw [ended]
      rfl

end Firing

/-! ## Adding the tasks -/

section Fire

variable {task : Nat} {attached : Prop} {wanted : Outcome → Assertion} {ledger : List Entry} {passed : History}
  {world next : World}

/-- What a task adds is the last of the chain. -/
theorem added_of_act {owner : Owner} {role : Role} {name : String} {body process : Process}
    (hosted : Hosted task passed world) (acts : world.act? = some (owner, .add role name body))
    (result : next = (world.addTask name body).2.proceed owner process)
    (apart : owner ≠ .task world.tasks.length) :
    (world.addTask name body).1 = .ok world.tasks.length ∧
    world.link? = some ⟨world.tasks.length, world.recorder.session, world.recorder.tail,
      some (name, body)⟩ ∧
    next.recorder.tail = some world.tasks.length ∧
    next.recorder.session = world.recorder.session ∧
    next.process? (.task world.tasks.length) = some (Recorder.task world.recorder.session
      world.recorder.tail name (.ofProcess body)).toProcess := by
  rcases addTask_cases world name body with ⟨still, _⟩ | ⟨looping, added⟩
  · rw [hosted.looping] at still
    cases still
  · refine ⟨by rw [added], ?_, ?_, ?_, ?_⟩
    · simp [World.link?, acts, looping]
    · rw [result, added]
      rfl
    · rw [result, added]
      rfl
    · have tasks : (world.addTask name body).2.tasks = (world.spawn (Recorder.task
          world.recorder.session world.recorder.tail name (.ofProcess body)).toProcess).1.tasks := by
        rw [added]
      rw [result, process?_proceed, if_neg apart, asleep?_congr tasks, asleep?_spawn, if_pos rfl]

/-- A task that has just been added has written nothing. -/
theorem said_of_added {owner : Owner} {role : Role} {name : String} {body : Process}
    (hosted : Hosted task passed world) (acts : world.act? = some (owner, .add role name body)) :
    History.said (passed ++ [world]) world.tasks.length = [] := by
  simp [History.said_append, hosted.serial.silent _ (Nat.le_refl _), World.writes?, acts]

theorem Fired.between {link : Link} {event : String} {args : List Value}
    (fired : Fired task attached ledger link event args passed world) (hosted : Hosted task passed world)
    (between : world.Between besides next) : Fired task attached ledger link event args passed next where
  member := fired.member
  ledger := fired.ledger
  aside := fired.aside.between hosted between
  sound number behind := (fired.sound number behind).between hosted between
  tail := (congrArg Recorder.tail (recorder_of_between between)).trans fired.tail
  bygone := fired.bygone.between hosted between
  unsaid := by
    obtain ⟨process, left, unsaid⟩ := fired.unsaid
    exact unsaid.between hosted left between

/-- The run adds a task that is to emit an event. -/
theorem meets_fire (name event : String) (args : List Value) :
    (hosting task attached).Meets task wanted (Amid task attached ledger) (Test.fire name event args)
      fun result passed world => result = .ok () ∧
        ∃ link, Setting.Held task (Fired task attached ledger link event args) passed world := by
  have adds : (hosting task attached).Meets task wanted (Amid task attached ledger)
      (Program.addFor .run name do
        emitFor .run event args
        return .null) fun result passed world => (∃ number, result = .ok number) ∧
        ∃ link, Setting.Held task (Fired task attached ledger link event args) passed world := by
    refine .addFor (fun _ => (Amid.lasts task attached ledger).kept fun _ _ => .inl) ?_
    intro passed world next process hosted rest orderly acts moved result _
    obtain ⟨answer, made, tail, session, left⟩ := added_of_act hosted acts result fun same =>
      Nat.ne_of_lt hosted.inside (Owner.task.inj same)
    refine ⟨⟨_, by rw [answer]; rfl⟩, ⟨world.tasks.length, world.recorder.session,
      world.recorder.tail, some (name, announcement event args)⟩, by rw [result]; rfl, ?_, ?_, ?_, ?_,
      tail, rest.bygone.step hosted moved fun _ => session, ?_⟩
    · rw [History.links_append, made]
      exact List.mem_append_right _ (by simp [announcement])
    · rw [History.ledger_append, rest.ledger, World.entry?, acts]
      exact List.append_nil _
    · exact (rest.aside.mono (by simp)).step hosted orderly moved fun _ _ _ _ _ => .inl (by simp)
    · exact fun number behind => (rest.sound number behind).step hosted moved
    · exact ⟨_, left, ⟨name, rfl⟩, .inl (said_of_added hosted acts)⟩
  refine .bind adds (fun _ => ?_) (by rintro _ _ _ _ ⟨⟨_, ⟨⟩⟩, _⟩)
  exact (Setting.Meets.pure () _).weaken (fun _ here => ⟨rfl, here.2⟩) fun _ here => here

/-- The run adds a second task that is to emit an event. -/
theorem meets_fire_second {first : Link} {event : String} {args : List Value}
    (name event' : String) (args' : List Value) :
    (hosting task attached).Meets task wanted (Setting.Held task (Fired task attached ledger first event args))
      (Test.fire name event' args') fun result passed world => result = .ok () ∧ ∃ second,
        Setting.Held task (fun passed world => world.recorder.tail = some second.number ∧
          Firing task attached ledger first second event event' args args' passed world) passed world := by
  have adds : (hosting task attached).Meets task wanted
      (Setting.Held task (Fired task attached ledger first event args))
      (Program.addFor .run name do
        emitFor .run event' args'
        return .null) fun result passed world => (∃ number, result = .ok number) ∧ ∃ second,
        Setting.Held task (fun passed world => world.recorder.tail = some second.number ∧
          Firing task attached ledger first second event event' args args' passed world) passed world := by
    refine .addFor (fun _ => .held rfl (by simp [Act.Waits])
      fun hosted fired between _ => fired.between hosted between) ?_
    intro passed world next process hosted held orderly acts moved result _
    obtain ⟨_, fired⟩ := held
    obtain ⟨answer, made, tail, session, left⟩ := added_of_act hosted acts result fun same =>
      Nat.ne_of_lt hosted.inside (Owner.task.inj same)
    have grows {link : Link} (member : link ∈ passed.links) :
        link ∈ History.links (passed ++ [world]) := by
      rw [History.links_append]
      exact List.mem_append_left _ member
    obtain ⟨process, left', unsaid⟩ := fired.unsaid
    obtain ⟨after, left', step⟩ := unsaid.step hosted fired.member left' moved
    have unsaid : Unsaid first event args (passed ++ [world]) after := by
      rcases step with ⟨unsaid, _⟩ | ⟨_, acts'⟩
      · exact unsaid
      · rw [acts] at acts'
        cases acts'
    refine ⟨⟨_, by rw [answer]; rfl⟩, ⟨world.tasks.length, world.recorder.session,
      world.recorder.tail, some (name, announcement event' args')⟩, by rw [result]; rfl, tail,
      grows fired.member, ?_, fired.tail, ?_, ?_, ?_, fun _ => tail,
      fired.bygone.step hosted moved fun _ => session, after, _, left', left, ?_⟩
    · rw [History.links_append, made]
      exact List.mem_append_right _ (by simp [announcement])
    · exact (fired.aside.mono (by simp)).step hosted orderly moved fun _ _ _ _ _ => .inl (by simp)
    · exact fun number behind => (fired.sound number behind).step hosted moved
    · intro number behind
      rw [tail, Option.some.injEq] at behind
      exact .inl behind.symm
    · refine .neither ?_ unsaid ⟨⟨name, rfl⟩, .inl (said_of_added hosted acts)⟩
      rw [History.ledger_append, fired.ledger, World.entry?, acts]
      exact List.append_nil _
  refine .bind adds (fun _ => ?_) (by rintro _ _ _ _ ⟨⟨_, ⟨⟩⟩, _⟩)
  exact (Setting.Meets.pure () _).weaken (fun _ here => ⟨rfl, here.2⟩) fun _ here => here

/-- The run waits for both tasks, and then rests. -/
theorem meets_drain {first second : Link} {event event' : String} {args args' : List Value} :
    (hosting task attached).Meets task wanted
      (Setting.Held task fun passed world => world.recorder.tail = some second.number ∧
        Firing task attached ledger first second event event' args args' passed world)
      Recorder.drainNow fun result passed world => result = .ok () ∧
        Rest task attached (ledger ++ [.emitted event args, .emitted event' args']) passed world := by
  have lasts : (hosting task attached).Lasts task Act.Idle
      (Firing task attached ledger first second event event' args args') := Firing.lasts
  have asks : (hosting task attached).Meets task wanted
      (Setting.Held task fun passed world => world.recorder.tail = some second.number ∧
        Firing task attached ledger first second event event' args args' passed world)
      (Program.ask .tail) fun result passed world => result = .ok (some second.number) ∧
        Firing task attached ledger first second event event' args args' passed world := by
    refine .ask (fun _ => .held rfl (by simp [Act.Waits]) fun hosted here between _ => ?_) ?_
    · exact ⟨(congrArg Recorder.tail (recorder_of_between between)).trans here.1,
        here.2.between hosted between⟩
    · intro passed world next process hosted held orderly acts moved result _
      obtain ⟨_, tail, firing⟩ := held
      refine ⟨congrArg Except.ok tail, firing.step hosted orderly moved fun act known => ?_⟩
      rw [acts] at known
      cases known
      exact .inr trivial
  refine .bind asks (fun tail => ?_) (by rintro _ _ _ _ ⟨⟨⟩, _⟩)
  refine .and_before fun same => ?_
  cases same
  have settles : (hosting task attached).Meets task wanted
      (Firing task attached ledger first second event event' args args')
      (Recorder.settled second.number) fun outcome passed world =>
        Firing task attached ledger first second event event' args args' passed world ∧
          world.outcome? second.number = some outcome := by
    refine .settled (lasts.mono ?_).spans fun hosted firing =>
      hosted.serial.inside second firing.member'
    rintro act (waits | rfl)
    · exact .inl waits
    · exact .inr trivial
  refine .bind (settles.weaken (fun _ here => here) fun hosted here =>
    here.1.rest hosted here.2) (fun _ => ?_) (by rintro _ _ _ _ ⟨⟨_, ⟨⟩⟩, _⟩)
  exact (Setting.Meets.pure () _).weaken (fun _ here => ⟨rfl, here.2⟩) fun _ here => here

/-- The run adds two tasks that are to emit an event each, and waits for them. -/
theorem meets_conclude {event : String} {args : List Value} (test : Test) :
    (hosting task attached).Meets task wanted
      (fun passed world => ∃ link, Setting.Held task (Fired task attached ledger link event args) passed world)
      test.conclude fun result passed world => result = .ok () ∧
        Rest task attached (ledger ++ [.emitted event args, .emitted testFinished [.test test.card]])
          passed world := by
  refine .exists_before fun first => ?_
  refine .bind (meets_fire_second _ _ _) (fun _ => ?_) (by rintro _ _ _ _ ⟨⟨⟩, _⟩)
  refine .and_before fun _ => .exists_before fun second => meets_drain

end Fire

end FeatureRunner
