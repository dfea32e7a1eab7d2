import FeatureRunner.Proofs.Actor.Dispatch
import FeatureRunner.Proofs.Recorder.Segment
import FeatureRunner.Proofs.Sequential.Interpreter
import FeatureRunner.Proofs.Suite.Closing

/-!
A loop and the interpreter side by side. While a test and its steps are at work, the world of the loop
and that of the interpreter tell the same of everything but what waits and what is being run, and the
tasks of the chain that have not ended are those of the queue.
-/

namespace FeatureRunner
open FeatureRunner.World

namespace World

/-- Two worlds tell the same of everything but what waits and what is being run. -/
structure Matches (world other : World) : Prop where
  scene : world.scene = other.scene
  length : world.tasks.length = other.tasks.length
  outcomes : ∀ number, world.outcome? number = other.outcome? number

section Matching

variable {world other next : World} {request : Request}

theorem Matches.recorder (alike : world.Matches other) : world.recorder = other.recorder := by
  change world.scene.recorder = other.scene.recorder
  rw [alike.scene]

theorem Matches.looping (alike : world.Matches other) : world.looping = other.looping := by
  change world.scene.looping = other.scene.looping
  rw [alike.scene]

theorem Matches.trans (alike : world.Matches other) (further : other.Matches next) :
    world.Matches next :=
  ⟨alike.scene.trans further.scene, alike.length.trans further.length,
    fun number => (alike.outcomes number).trans (further.outcomes number)⟩

theorem Matches.symm (alike : world.Matches other) : other.Matches world :=
  ⟨alike.scene.symm, alike.length.symm, fun number => (alike.outcomes number).symm⟩

theorem Matches.proceed (owner : Owner) (process : Process) :
    (world.proceed owner process).Matches world :=
  ⟨rfl, rfl, fun _ => rfl⟩

theorem Calm.matches (calm : world.Calm next) : next.Matches world :=
  ⟨calm.scene, calm.length, calm.outcomes⟩

theorem Matches.set_recorder (alike : world.Matches other) (recorder : Recorder) :
    Matches { world with recorder := recorder } { other with recorder := recorder } :=
  ⟨congrArg (fun scene => { scene with recorder := recorder }) alike.scene, alike.length,
    alike.outcomes⟩

theorem Matches.spawn (alike : world.Matches other) (process process' : Process) :
    (world.spawn process).1.Matches (other.spawn process').1 where
  scene := alike.scene
  length := by simp [World.spawn, alike.length]
  outcomes number := by rw [outcome?_spawn, outcome?_spawn, alike.outcomes]

theorem recover_of_ended (ended : ∀ previous, world.recorder.tail = some previous →
    (world.outcome? previous).isSome) : world.recover =
      (.ok (), { world with recorder := { world.recorder with tail := none } }) := by
  unfold World.recover
  split
  · rfl
  · rename_i previous tail
    exact if_pos (ended previous tail)

theorem recover_of_pending {previous : Nat} (tail : world.recorder.tail = some previous)
    (pending : world.outcome? previous = none) : world.recover =
      if !world.looping then (.error .noRunningLoop, world)
      else (.ok (), { (world.spawn (Recorder.abandoned previous).toProcess).1 with
        recorder := { world.recorder with tail := some world.tasks.length } }) := by
  unfold World.recover
  split
  · rename_i none
    cases none.symm.trans tail
  · rename_i other tail'
    cases tail.symm.trans tail'
    exact if_neg (by simp [pending])

theorem recover_of_looping (looping : world.looping = true) : world.recover.1 = .ok () := by
  by_cases ended : ∀ previous, world.recorder.tail = some previous →
      (world.outcome? previous).isSome
  · rw [recover_of_ended ended]
  · simp only [not_forall, Option.not_isSome_iff_eq_none] at ended
    obtain ⟨previous, tail, pending⟩ := ended
    simp [recover_of_pending tail pending, looping]

theorem Matches.recover (alike : world.Matches other) :
    world.recover.1 = other.recover.1 ∧ world.recover.2.Matches other.recover.2 := by
  by_cases ended : ∀ previous, other.recorder.tail = some previous →
      (other.outcome? previous).isSome
  · rw [recover_of_ended ended, recover_of_ended (by simpa only [alike.recorder, alike.outcomes]),
      alike.recorder]
    exact ⟨rfl, alike.set_recorder _⟩
  · simp only [not_forall, Option.not_isSome_iff_eq_none] at ended
    obtain ⟨previous, tail, pending⟩ := ended
    rw [recover_of_pending tail pending, recover_of_pending (alike.recorder ▸ tail)
      ((alike.outcomes previous).trans pending), alike.looping, alike.recorder, alike.length]
    split
    · exact ⟨rfl, alike⟩
    · exact ⟨rfl, (alike.spawn _ _).set_recorder _⟩

theorem Matches.addTask (alike : world.Matches other) (name : String) (body : Process) :
    (world.addTask name body).1 = (other.addTask name body).1 ∧
      (world.addTask name body).2.Matches (other.addTask name body).2 := by
  rcases addTask_cases world name body with ⟨still, result⟩ | ⟨looping, result⟩
  · rcases addTask_cases other name body with ⟨_, result'⟩ | ⟨looping, _⟩
    · rw [result, result']
      exact ⟨rfl, alike⟩
    · rw [alike.looping, looping] at still
      cases still
  · rcases addTask_cases other name body with ⟨still, _⟩ | ⟨_, result'⟩
    · rw [alike.looping, still] at looping
      cases looping
    · rw [result, result', alike.length, alike.recorder]
      exact ⟨rfl, (alike.spawn _ _).set_recorder _⟩

/-- What is answered depends on no more than all but the tasks and the loop. -/
theorem respond_scene (world : World) (steady : ∀ role, request ≠ .recorder role .recover)
    (apart : ∀ task, request ≠ .outcome task) :
    (world.respond request).1 = (world.scene.respond request).1 ∧
      (world.respond request).2.scene = (world.scene.respond request).2.scene := by
  cases request with
  | count instanceNumber amount =>
    simp only [World.respond, addToTotal, show world.scene.container = world.container from rfl]
    split <;> exact ⟨rfl, rfl⟩
  | recorder role call =>
    cases call with
    | recover => exact absurd rfl (steady role)
    | _ => exact ⟨rfl, rfl⟩
  | outcome task => exact absurd rfl (apart task)
  | _ => exact ⟨rfl, rfl⟩

theorem Matches.respond (alike : world.Matches other) (request : Request) :
    (world.respond request).1 = (other.respond request).1 ∧
      (world.respond request).2.Matches (other.respond request).2 := by
  by_cases recovers : ∃ role, request = .recorder role .recover
  · obtain ⟨role, rfl⟩ := recovers
    exact alike.recover
  have steady (role : Role) : request ≠ .recorder role .recover := fun same => recovers ⟨role, same⟩
  have length : (world.respond request).2.tasks.length = (other.respond request).2.tasks.length := by
    rw [(respond_rests request steady).tasks, (respond_rests request steady).tasks, alike.length]
  have outcomes (number : Nat) : (world.respond request).2.outcome? number =
      (other.respond request).2.outcome? number := by
    rw [outcome?_respond, outcome?_respond, alike.outcomes]
  by_cases looks : ∃ task, request = .outcome task
  · obtain ⟨task, rfl⟩ := looks
    exact ⟨alike.outcomes task, alike⟩
  · have apart (task : Nat) : request ≠ .outcome task := fun same => looks ⟨task, same⟩
    obtain ⟨answer, scene⟩ := respond_scene world steady apart
    obtain ⟨answer', scene'⟩ := respond_scene other steady apart
    rw [answer, answer', alike.scene]
    refine ⟨rfl, ?_, length, outcomes⟩
    rw [scene, scene', alike.scene]

end Matching

/-- The event that the next step emits, with its arguments. -/
def emission? (world : World) : Option (String × List Value) :=
  match world.act? with
  | some (_, .ask request) => request.emission?
  | _ => none

def History.emitted (passed : History) : List (String × List Value) :=
  passed.filterMap World.emission?

theorem History.emitted_append (passed : History) (world : World) :
    History.emitted (passed ++ [world]) = passed.emitted ++ world.emission?.toList := by
  simp only [emitted, List.filterMap_append]
  cases found : world.emission? <;> simp [found]

end World

/-- The act neither emits an event nor writes to the trace, and makes no use of the recorder. -/
def Act.Tacit : Act → Prop
  | .ask (.subscribers ..) | .ask (.record ..) | .ask (.recorder ..) | .add .. => False
  | _ => True

/-- On whose behalf an act makes use of the recorder. -/
def Act.use? : Act → Option Role
  | .add role _ _ | .ask (.recorder role _) => some role
  | _ => none

/-- The act starts the recorder anew. -/
def Act.Starts (world : World) : Act → Prop
  | .ask (.recorder _ .start) => True
  | .ask (.recorder _ .startUnlessRunning) => world.recorder.running = false
  | _ => False

/-- Only a task and those added after it are at work, and only the run of that task and the bodies of
its steps make use of the recorder. They do not start it anew. -/
def World.Alone (host : Nat) (world : World) : Prop :=
  match world.current with
  | none => True
  | some (.caller, _) => False
  | some (.task number, process) => host ≤ number ∧ ∀ act ∈ process.act?, ¬act.Starts world ∧
      ∀ role ∈ act.use?, number = host ∧ (role = .run ∨ role = .step)

instance (world : World) : DecidablePred (Act.Starts world) := fun act => by
  unfold Act.Starts
  split <;> infer_instance

instance (host : Nat) : DecidablePred (World.Alone host) := fun world => by
  unfold World.Alone
  split <;> infer_instance

/-- A task is left to itself in a loop. -/
def solitary (host : Nat) : Setting where
  outside _ _ := False
  fair := World.Alone host
  holds := Looped host
  wired := @Looped.wired host
  uncancelled := @Looped.uncancelled host
  step here _ moved := (looped host).step here trivial moved
  between here between := (looped host).between here (between.mono False.elim)
  apart _ comes := comes.elim

section Steps

variable {host : Nat} {passed : History} {world next : World}

theorem World.silent_of_tacit (tacit : ∀ owner act, world.act? = some (owner, act) → act.Tacit) :
    world.link? = none ∧ world.emission? = none ∧ ∀ number, world.writes? number = none := by
  rcases acts : world.act? with _ | ⟨owner, act⟩
  · simp [World.link?, World.emission?, World.writes?, acts]
  · have quiet := tacit owner act acts
    cases act with
    | ask request => cases owner <;> cases request <;>
        first
        | exact quiet.elim
        | simp [World.link?, World.emission?, World.writes?, acts, Request.emission?, Request.line?]
    | add role name body => exact quiet.elim
    | _ => cases owner <;> simp [World.link?, World.emission?, World.writes?, acts]

theorem World.Alone.task (alone : world.Alone host) {owner : Owner} {process : Process}
    (running : world.current = some (owner, process)) :
    ∃ number, owner = .task number ∧ host ≤ number := by
  unfold World.Alone at alone
  rw [running] at alone
  cases owner with
  | caller => exact alone.elim
  | task number => exact ⟨number, rfl, alone.1⟩

theorem World.Alone.use (alone : world.Alone host) {number : Nat} {act : Act}
    (acts : world.act? = some (.task number, act)) : ¬act.Starts world ∧
      ∀ role, act.use? = some role → number = host ∧ (role = .run ∨ role = .step) := by
  obtain ⟨process, running, acts⟩ := running_of_act? acts
  unfold World.Alone at alone
  rw [running] at alone
  exact alone.2 act acts

theorem World.writes?_of_apart {speaker number : Nat} {act : Act}
    (acts : world.act? = some (.task speaker, act)) (apart : speaker ≠ number) :
    world.writes? number = none := by
  cases act with
  | ask request => simp [World.writes?, acts, apart]
  | _ => simp [World.writes?, acts]

/-- While nothing is being run, a step changes nothing that is told. -/
theorem World.Stepped.matches_of_idle (stepped : world.Stepped next) (idle : world.current = none) :
    next.Matches world := by
  have running {owner : Owner} {process : Process}
      (running : world.current = some (owner, process)) : next.Matches world := by
    rw [idle] at running
    cases running
  cases stepped with
  | asks current => exact running current
  | calls current => exact running current
  | leaves current => exact running current
  | adds current => exact running current
  | ends current => exact running current
  | notices _ calm => exact (Matches.proceed _ _).trans calm.matches
  | passes _ calm => exact calm.matches

end Steps

/-- A chain ends with one of its links. -/
theorem Strung.last {first last : Option Nat} {links : List Link} (strung : Strung first links last)
    (some : links ≠ []) : ∃ link ∈ links, last = Option.some link.number := by
  induction strung with
  | nil => exact absurd rfl some
  | @cons link links last strung ih =>
    cases links with
    | nil =>
      generalize number : Option.some link.number = previous at strung
      cases strung
      exact ⟨link, by simp, number.symm⟩
    | cons head rest =>
      obtain ⟨found, member, same⟩ := ih (by simp)
      exact ⟨found, List.mem_cons_of_mem _ member, same⟩

namespace Sequential

/-- The interpreter is where a loop is: their worlds tell the same, and so do the emitted events. -/
structure Agrees (state : State) (passed : History) (world : World) : Prop where
  matches' : state.world.Matches world
  emitted : state.emitted = passed.emitted

/-- A task has ended as a queue says that is to be executed behind it. -/
def Behind (world : World) (failed : Option Failure) : Option Nat → Prop
  | none => failed = none
  | some previous => ∃ outcome, world.outcome? previous = some outcome ∧ outcome.failure? = failed

/-- The tasks after the host that have not ended are those of a queue, each behind the last. -/
structure Remains (host : Nat) (failed : Option Failure) (queue : List Link) (passed : History)
    (world : World) : Prop where
  strung : ∃ previous, Strung previous queue world.recorder.tail ∧ Behind world failed previous
  links : ∀ link ∈ queue, link ∈ passed.links
  later : ∀ link ∈ queue, host < link.number
  pending : ∀ link ∈ queue, world.outcome? link.number = none
  others : ∀ number, host < number → number < world.tasks.length →
    world.outcome? number = none → ∃ link ∈ queue, link.number = number

/-- While the host is at work, the tasks of the queue have not begun. -/
structure Mirrors (host : Nat) (state : State) (passed : History) (world : World) : Prop
    extends Agrees state passed world where
  remains : Remains host state.failed state.queue passed world
  silent : ∀ link ∈ state.queue, passed.said link.number = []
  busy : state.queue = [] ∨ world.busy = some host

section Mirroring

variable {host : Nat} {state : State} {failed : Option Failure} {queue : List Link}
  {passed : History} {world next : World}

theorem State.ask_of_steady {request : Request} (steady : ∀ role, request ≠ .recorder role .recover) :
    state.ask request = ((state.world.respond request).1,
      { state with
        world := (state.world.respond request).2
        emitted := state.emitted ++ request.emission?.toList }) := by
  cases request with
  | recorder role call =>
    cases call with
    | recover => exact absurd rfl (steady role)
    | _ => rfl
  | _ => rfl

theorem Agrees.stays (agrees : Agrees state passed world) (same : next.Matches world)
    (tacit : ∀ owner act, world.act? = some (owner, act) → act.Tacit) :
    Agrees state (passed ++ [world]) next where
  matches' := agrees.matches'.trans same.symm
  emitted := by simp [History.emitted_append, (World.silent_of_tacit tacit).2.1, agrees.emitted]

/-- The interpreter is answered what the loop is. -/
theorem Agrees.ask {owner : Owner} {request : Request} (process : Process)
    (agrees : Agrees state passed world) (acts : world.act? = some (owner, .ask request)) :
    (state.ask request).1 = (world.respond request).1 ∧
      Agrees (state.ask request).2 (passed ++ [world])
        ((world.respond request).2.proceed owner process) := by
  obtain ⟨answer, same⟩ := agrees.matches'.respond request
  have same := same.trans (Matches.proceed owner process).symm
  have emission : world.emission? = request.emission? := by simp [World.emission?, acts]
  by_cases recovers : ∃ role, request = .recorder role .recover
  · obtain ⟨role, rfl⟩ := recovers
    have emitted : state.emitted = History.emitted (passed ++ [world]) := by
      simp [History.emitted_append, emission, Request.emission?, agrees.emitted]
    change state.recover.1 = _ ∧ Agrees state.recover.2 _ _
    unfold State.recover
    dsimp only
    split
    · exact ⟨answer, same, emitted⟩
    · exact ⟨answer, same, emitted⟩
  · rw [State.ask_of_steady fun role equal => recovers ⟨role, equal⟩]
    refine ⟨answer, same, ?_⟩
    rw [History.emitted_append, emission, agrees.emitted]

theorem Agrees.add {owner : Owner} {role : Role} {name : String} {body : Process}
    (process : Process) (agrees : Agrees state passed world)
    (acts : world.act? = some (owner, .add role name body)) :
    (state.add name body).1 = (world.addTask name body).1 ∧
      Agrees (state.add name body).2 (passed ++ [world])
        ((world.addTask name body).2.proceed owner process) := by
  obtain ⟨answer, same⟩ := agrees.matches'.addTask name body
  have same := same.trans (Matches.proceed owner process).symm
  have emitted : state.emitted = History.emitted (passed ++ [world]) := by
    simp [History.emitted_append, World.emission?, acts, agrees.emitted]
  unfold State.add
  dsimp only
  rw [← answer]
  split
  · rename_i added
    rw [added] at same ⊢
    exact ⟨rfl, same, emitted⟩
  · rename_i added
    rw [added] at same ⊢
    exact ⟨rfl, same, emitted⟩

/-- The end of a task is noted. -/
theorem Agrees.finish {number : Nat} {outcome : Outcome} (agrees : Agrees state passed world)
    (running : world.current = some (.task number, .done outcome)) (inside : number < world.tasks.length)
    (flows : world.Flows next) (ended : next.outcome? number = some outcome)
    (others : ∀ other, other ≠ number → next.outcome? other = world.outcome? other) :
    Agrees (state.finish number outcome) (passed ++ [world]) next where
  matches' := by
    refine ⟨?_, ?_, fun other => ?_⟩
    · exact agrees.matches'.scene.trans flows.scene.symm
    · simp [State.finish, agrees.matches'.length, flows.length]
    · have known := agrees.matches'.outcomes other
      by_cases same : other = number
      · subst same
        rw [ended]
        simp [State.finish, World.outcome?, state?_put, agrees.matches'.length, inside,
          TaskState.outcome?]
      · rw [others other same, ← known]
        simp [State.finish, World.outcome?, state?_setState, same]
  emitted := by
    simp [State.finish, History.emitted_append, World.emission?, World.act?, running, Process.act?,
      agrees.emitted]

/-! ### What is in the queue -/

theorem Behind.congr {previous : Option Nat} (behind : Behind world failed previous)
    (outcomes : ∀ number, next.outcome? number = world.outcome? number) :
    Behind next failed previous := by
  cases previous with
  | none => exact behind
  | some previous =>
    obtain ⟨outcome, ended, fails⟩ := behind
    exact ⟨outcome, (outcomes previous).trans ended, fails⟩

theorem links_of_mem {link : Link} (member : link ∈ passed.links) :
    link ∈ History.links (passed ++ [world]) := by
  rw [History.links_append]
  exact List.mem_append_left _ member

theorem Remains.keep {later : History} (remains : Remains host failed queue passed world)
    (more : ∀ {link}, link ∈ passed.links → link ∈ later.links)
    (tail : next.recorder.tail = world.recorder.tail)
    (length : next.tasks.length = world.tasks.length)
    (outcomes : ∀ number, next.outcome? number = world.outcome? number) :
    Remains host failed queue later next where
  strung := by
    obtain ⟨previous, strung, behind⟩ := remains.strung
    exact ⟨previous, tail ▸ strung, behind.congr outcomes⟩
  links link member := more (remains.links link member)
  later := remains.later
  pending link member := (outcomes _).trans (remains.pending link member)
  others number after inside unsettled :=
    remains.others number after (length ▸ inside) ((outcomes number).symm.trans unsettled)

theorem Remains.stays (remains : Remains host failed queue passed world) (same : next.Matches world) :
    Remains host failed queue (passed ++ [world]) next :=
  remains.keep links_of_mem (by rw [same.recorder]) same.length same.outcomes

/-- Where nothing is left the chain can begin anew. -/
theorem Remains.renew (remains : Remains host failed [] passed world)
    (tail : next.recorder.tail = none) (length : next.tasks.length = world.tasks.length)
    (outcomes : ∀ number, next.outcome? number = world.outcome? number) :
    Remains host none [] (passed ++ [world]) next where
  strung := ⟨none, tail ▸ .nil none, rfl⟩
  links := by simp
  later := by simp
  pending := by simp
  others number after inside unsettled :=
    remains.others number after (length ▸ inside) ((outcomes number).symm.trans unsettled)

theorem Remains.ended (remains : Remains host failed [] passed world) {previous : Nat}
    (tail : world.recorder.tail = some previous) :
    ∃ outcome, world.outcome? previous = some outcome ∧ outcome.failure? = failed := by
  obtain ⟨first, strung, behind⟩ := remains.strung
  cases strung
  rwa [tail] at behind

theorem Remains.last (remains : Remains host failed queue passed world) (some : queue ≠ []) :
    ∃ link ∈ queue, world.recorder.tail = Option.some link.number := by
  obtain ⟨_, strung, _⟩ := remains.strung
  exact strung.last some

/-- Only the host and the tasks of the queue are at work. -/
theorem Remains.working (remains : Remains host failed queue passed world)
    (wired : world.Wired world.busy) (alone : world.Alone host) {owner : Owner} {process : Process}
    (running : world.current = some (owner, process)) :
    owner = .task host ∨ ∃ link ∈ queue, owner = .task link.number := by
  obtain ⟨number, rfl, upTo⟩ := alone.task running
  obtain ⟨inside, unsettled, _⟩ := wired.released number (by simp [World.busy, running])
  rcases Nat.eq_or_lt_of_le upTo with rfl | after
  · exact .inl rfl
  · obtain ⟨link, member, rfl⟩ := remains.others number after inside unsettled
    exact .inr ⟨link, member, rfl⟩

/-- A task is put behind the last. -/
theorem Remains.snoc {link : Link} (remains : Remains host failed queue passed world)
    (here : Looped host passed world) (made : world.link? = some link)
    (tail : link.previous = world.recorder.tail) (tail' : next.recorder.tail = some link.number)
    (length : next.tasks.length = world.tasks.length + 1)
    (outcomes : ∀ number, next.outcome? number = world.outcome? number) :
    Remains host failed (queue ++ [link]) (passed ++ [world]) next := by
  have number := (Serial.number_of_link made).1
  have member {other : Link} (found : other ∈ queue ++ [link]) : other ∈ queue ∨ other = link := by
    simpa using found
  have new : world.outcome? link.number = none := by
    by_contra settled
    obtain ⟨outcome, ended⟩ := Option.ne_none_iff_exists'.1 settled
    exact absurd (outcome?_lt ended) (by omega)
  constructor
  case strung =>
    obtain ⟨previous, strung, behind⟩ := remains.strung
    exact ⟨previous, tail' ▸ strung.snoc tail, behind.congr outcomes⟩
  case links =>
    intro other found
    rcases member found with old | rfl
    · exact links_of_mem (remains.links other old)
    · simp [History.links_append, made]
  case later =>
    intro other found
    rcases member found with old | rfl
    · exact remains.later other old
    · exact number ▸ here.inside
  case pending =>
    intro other found
    rw [outcomes]
    rcases member found with old | rfl
    · exact remains.pending other old
    · exact new
  case others =>
    intro other after inside unsettled
    rw [outcomes] at unsettled
    by_cases old : other < world.tasks.length
    · obtain ⟨found, among, same⟩ := remains.others other after old unsettled
      exact ⟨found, List.mem_append_left _ among, same⟩
    · exact ⟨link, by simp, by omega⟩

theorem tail_respond {request : Request} (steady : ∀ role, request ≠ .recorder role .recover)
    (goes : ¬Act.Starts world (.ask request)) :
    (world.respond request).2.recorder.tail = world.recorder.tail := by
  cases request with
  | recorder role call =>
    cases call with
    | recover => exact absurd rfl (steady role)
    | start => exact absurd trivial goes
    | stop => rfl
    | startUnlessRunning =>
      have running : world.recorder.running = true := by simpa [Act.Starts] using goes
      simp [World.respond, operate, Recorder.startUnlessRunning, running]
  | record session line =>
    simp only [World.respond, Recorder.record]
    split <;> rfl
  | count instanceNumber amount =>
    simp only [World.respond, addToTotal]
    split <;> rfl
  | _ => rfl

/-! ### What the host does -/

theorem Mirrors.stays (mirrors : Mirrors host state passed world) (same : next.Matches world)
    (tacit : ∀ owner act, world.act? = some (owner, act) → act.Tacit)
    (busy : state.queue = [] ∨ next.busy = some host) :
    Mirrors host state (passed ++ [world]) next where
  toAgrees := mirrors.toAgrees.stays same tacit
  remains := mirrors.remains.stays same
  silent link member := by
    simp [History.said_append, mirrors.silent link member, (World.silent_of_tacit tacit).2.2]
  busy := busy

theorem Mirrors.quiet (mirrors : Mirrors host state passed world) {act : Act}
    (acts : world.act? = some (.task host, act)) :
    ∀ link ∈ state.queue, History.said (passed ++ [world]) link.number = [] := by
  intro link member
  have apart := Nat.ne_of_lt (mirrors.remains.later link member)
  simp [History.said_append, mirrors.silent link member, World.writes?_of_apart acts apart]

/-- The host is answered what the interpreter is. -/
theorem Mirrors.ask {request : Request} (process : Process)
    (mirrors : Mirrors host state passed world) (here : Looped host passed world) (alone : world.Alone host)
    (acts : world.act? = some (.task host, .ask request)) :
    (state.ask request).1 = (world.respond request).1 ∧
      Mirrors host (state.ask request).2 (passed ++ [world])
        ((world.respond request).2.proceed (.task host) process) := by
  obtain ⟨answer, agrees⟩ := mirrors.toAgrees.ask process acts
  have quiet := mirrors.quiet acts
  have same := mirrors.matches'
  by_cases recovers : ∃ role, request = .recorder role .recover
  · obtain ⟨role, rfl⟩ := recovers
    have remains := mirrors.remains
    change state.recover.1 = _ ∧ Mirrors host state.recover.2 _ _
    change state.recover.1 = _ at answer
    change Agrees state.recover.2 _ _ at agrees
    unfold State.recover at answer agrees ⊢
    rcases queued : state.queue with _ | ⟨head, rest⟩
    · rw [queued] at remains
      have ended : world.recover =
          (.ok (), { world with recorder := { world.recorder with tail := none } }) := by
        refine recover_of_ended fun previous tail => ?_
        obtain ⟨outcome, ended, _⟩ := remains.ended tail
        simp [ended]
      simp only [queued, List.isEmpty_nil, if_true] at answer agrees ⊢
      refine ⟨answer, agrees, ?_, by simp, .inr rfl⟩
      refine remains.renew ?_ ?_ fun number => outcome?_respond _ number
      · change world.recover.2.recorder.tail = none
        rw [ended]
      · change world.recover.2.tasks.length = _
        rw [ended]
    · obtain ⟨last, member, tail⟩ := remains.last (by simp [queued])
      have pending := remains.pending last member
      have made : world.link? = some
          ⟨world.tasks.length, world.recorder.session, world.recorder.tail, none⟩ := by
        simp [World.link?, acts, tail, pending, here.looping]
      have stands := recover_of_pending tail pending
      simp only [here.looping, Bool.not_true, if_false, Bool.false_eq_true] at stands
      simp only [queued, List.isEmpty_cons, if_false, Bool.false_eq_true, same.length, same.recorder]
        at answer agrees ⊢
      refine ⟨answer, agrees, ?_, ?_, .inr rfl⟩
      · refine (queued ▸ remains).snoc here made rfl ?_ ?_ fun number => outcome?_respond _ number
        · change world.recover.2.recorder.tail = _
          rw [stands]
        · change world.recover.2.tasks.length = _
          simp [stands, World.spawn]
      · intro link found
        rcases List.mem_append.1 found with old | new
        · exact quiet link (queued ▸ old)
        · obtain rfl := List.mem_singleton.1 new
          have apart : host ≠ world.tasks.length := Nat.ne_of_lt here.inside
          simp [History.said_append, here.serial.silent, World.writes?_of_apart acts apart]
  · have steady (role : Role) : request ≠ .recorder role .recover := fun equal => recovers ⟨role, equal⟩
    rw [State.ask_of_steady steady] at answer agrees ⊢
    refine ⟨answer, agrees, ?_, quiet, .inr rfl⟩
    refine mirrors.remains.keep links_of_mem (tail_respond steady (alone.use acts).1) ?_ fun number =>
      outcome?_respond _ number
    exact congrArg List.length (respond_rests request steady).tasks

/-- What the host adds is put into the queue. -/
theorem Mirrors.add {role : Role} {name : String} {body : Process} (process : Process)
    (mirrors : Mirrors host state passed world) (here : Looped host passed world)
    (acts : world.act? = some (.task host, .add role name body)) :
    (state.add name body).1 = (world.addTask name body).1 ∧
      Mirrors host (state.add name body).2 (passed ++ [world])
        ((world.addTask name body).2.proceed (.task host) process) := by
  obtain ⟨answer, agrees⟩ := mirrors.toAgrees.add process acts
  have quiet := mirrors.quiet acts
  have same := mirrors.matches'
  have made : world.link? = some
      ⟨world.tasks.length, world.recorder.session, world.recorder.tail, some (name, body)⟩ := by
    simp [World.link?, acts, here.looping]
  rcases addTask_cases world name body with ⟨still, _⟩ | ⟨_, result⟩
  · rw [here.looping] at still
    cases still
  have added : (state.world.addTask name body).1 = .ok world.tasks.length := by
    rw [(same.addTask name body).1, result]
  have grown : (state.add name body).2.queue = state.queue ++
      [⟨world.tasks.length, world.recorder.session, world.recorder.tail, some (name, body)⟩] ∧
      (state.add name body).2.failed = state.failed := by
    unfold State.add
    dsimp only
    split
    · rename_i found
      rw [found] at added
      cases added
      exact ⟨by rw [same.recorder], rfl⟩
    · rename_i found
      rw [found] at added
      cases added
  refine ⟨answer, agrees, ?_, ?_, .inr rfl⟩
  · rw [grown.1, grown.2]
    refine mirrors.remains.snoc here made rfl ?_ ?_ fun number => outcome?_addTask _ _ number
    · change (world.addTask name body).2.recorder.tail = _
      rw [result]
    · change (world.addTask name body).2.tasks.length = _
      simp [result, World.spawn]
  · rw [grown.1]
    intro link found
    rcases List.mem_append.1 found with old | new
    · exact quiet link old
    · obtain rfl := List.mem_singleton.1 new
      have apart : host ≠ world.tasks.length := Nat.ne_of_lt here.inside
      simp [History.said_append, here.serial.silent, World.writes?_of_apart acts apart]

/-- Nothing happens while the host does not go on. -/
theorem Mirrors.kept {process : Process} {act : Act} (acts : process.act? = some act)
    (active : ¬act.Waits) : (solitary host).Kept host (Mirrors host state) process where
  step {passed world next} here mirrors left fair moved _ idle := by
    by_cases busy : world.busy = some host
    · exact absurd (idle act (act?_of_running (Setting.running_of_busy busy left) acts)).1 active
    · have vacant := mirrors.busy.resolve_right busy
      have none : world.current = none := by
        rcases current : world.current with _ | ⟨owner, running⟩
        · rfl
        · rcases mirrors.remains.working here.serial.wired fair current with rfl | ⟨link, member, _⟩
          · exact absurd (by simp [World.busy, current]) busy
          · simp [vacant] at member
      have stepped := step?_stepped here.serial.wired moved
      exact mirrors.stays (stepped.matches_of_idle none) (by simp [World.act?, none]) (.inl vacant)
  between {passed world next} here mirrors between _ := by
    have calm : world.Calm next := between.calm_or.resolve_right id
    have same := calm.matches
    refine ⟨⟨mirrors.matches'.trans same.symm, mirrors.emitted⟩, ?_, mirrors.silent, ?_⟩
    · exact mirrors.remains.keep id (by rw [same.recorder]) same.length same.outcomes
    · refine mirrors.busy.imp_right fun busy => ?_
      cases between with
      | turn => exact busy
      | gate gate idle => simp [World.busy, idle] at busy
      | outside comes => exact comes.elim

end Mirroring

end Sequential

end FeatureRunner
