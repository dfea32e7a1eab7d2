import FeatureRunner.Proofs.Dispatcher.Changes
import FeatureRunner.Proofs.Results.Nesting
import FeatureRunner.Proofs.Suite.Closing

/-!
Who tells the collector, and when. As long as nobody but runs emits the events that the collector
is subscribed to, it hears of them from two sides: from the task that runs suites and tests, and
from tasks of the chain that tell how a test ends. Whatever else is done leaves the results in the
period in which they are.

Main statements: `World.Amidst.step` and `World.Amidst.between`.
-/

namespace FeatureRunner
open FeatureRunner.World

/-! ## Laws -/

/-- No listener fails. -/
def Act.Unfailing : Act → Prop
  | .leave .listener outcome => ∃ value, outcome = .ok value
  | _ => True

theorem Act.unfailing_ok (value : Value) : (Act.leave .listener (.ok value)).Unfailing :=
  ⟨value, rfl⟩

theorem Act.not_unfailing_error (failure : Failure) :
    ¬(Act.leave .listener (.error failure)).Unfailing :=
  nofun

instance : DecidablePred Act.Unfailing
  | .leave .listener (.ok value) => isTrue (Act.unfailing_ok value)
  | .leave .listener (.error failure) => isFalse (Act.not_unfailing_error failure)
  | .leave .run _ | .leave .step _ | .leave .method _ | .leave .task _ | .leave .notice _
  | .leave .actor _ | .leave .outside _ => isTrue trivial
  | .ask _ | .call .. | .add .. | .await _ | .join _ | .wait _ | .yield => isTrue trivial

theorem Act.unfailing_of_waits {act : Act} (waits : act.Waits) : act.Unfailing := by
  cases act with
  | leave => exact waits.elim
  | _ => trivial

/-- For runs, only events of some kinds are emitted, and the collector is not told of others; what is
added is as is said. -/
def sparing (kinds : CollectorEvent → Prop) (bodies : Process → Prop) (covers : Prop) : Law where
  allows
    | .ask (.subscribers role event _) =>
      role = .run → ∃ kind, collectorEvent? event = some kind ∧ kinds kind
    | .ask (.collect kind _) => kinds kind
    | .call role _ _ => role ≠ .run
    | .add _ _ body => bodies body
    | _ => True
  assumes := Act.Unfailing
  grants
    | .subscribers role event args, subscribers =>
      ∀ due ∈ owed args subscribers, role = .run ∧ collectorEvent? event = some due.1
    | request, answer => request.Fair answer
  covers := covers

/-- Nothing is emitted for runs, nor by what is added. -/
abbrev hushed : Law :=
  sparing (fun _ => False) (fun _ => True) True

/-- The same of a task that may add others of its own. -/
abbrev reserved : Law :=
  sparing (fun _ => False) (·.Obeys hushed) False

/-- For runs, only the ends of tests are told of. -/
abbrev announcing : Law :=
  sparing CollectorEvent.Closing (·.Obeys hushed) False

section Reticent

variable {kinds : CollectorEvent → Prop} {bodies : Process → Prop} {covers : Prop}

theorem sparing_listeners : (sparing kinds bodies covers).AdmitsListeners where
  collects _ _ args _ allowed granted kind member := by
    obtain ⟨run, known⟩ := granted (kind, args)
      (List.mem_map.2 ⟨kind, List.mem_filterMap.2 ⟨_, member, rfl⟩, rfl⟩)
    obtain ⟨other, known', some⟩ := allowed run
    cases known.symm.trans known'
    exact some
  calls _ _ _ := nofun
  leaves _ := trivial

theorem sparing_jobs : (sparing kinds bodies covers).AdmitsJobs where
  toAdmitsListeners := sparing_listeners
  asks request worked := by
    cases request with
    | subscribers speaker event args =>
      cases worked
      exact nofun
    | collect kind args => exact worked.elim
    | _ => trivial
  fair _ _ fair := fair
  performs role callable args performer := by
    rcases performer with rfl | rfl <;> exact nofun
  performed _ _ _ := trivial

variable (jobs : ∀ body, Job body → bodies body)
include jobs

theorem sparing_scripts {role : Role} (apart : role ≠ .run) (suspends : Bool) :
    (sparing kinds bodies covers).AdmitsScripts role suspends where
  toAdmitsListeners := sparing_listeners
  asks request scripted := by
    cases request with
    | subscribers speaker event args =>
      rcases scripted with rfl | ⟨rfl, rfl⟩
      · exact fun run => absurd run apart
      · exact nofun
    | collect kind args => exact scripted.elim
    | _ => trivial
  adds _ body job := jobs body job
  works _ _ job := job.obeys sparing_jobs
  awaits _ _ _ _ _ _ := trivial
  waits _ := ⟨fun _ => trivial, trivial⟩

theorem sparing_closed : (sparing kinds bodies covers).Closed :=
  fun _ callable args apart => callable.process_obeys (sparing_scripts jobs apart _) args

omit jobs

theorem sparing_drains : (sparing kinds bodies covers).AdmitsDrains where
  outcomes _ := trivial
  fair _ _ fair := fair

theorem sparing_tails : (sparing kinds bodies covers).AdmitsTails where
  toAdmitsDrains := sparing_drains
  tail := trivial
  joins _ _ := trivial

/-- A task of the chain emits what its work does. -/
theorem task_sparing {session : Nat} {previous : Option Nat} {name : String} {body : Process}
    (work : body.Obeys (sparing kinds bodies covers)) :
    (Recorder.task session previous name (.ofProcess body)).toProcess.Obeys
      (sparing kinds bodies covers) :=
  task_keeps sparing_drains (fun _ _ => trivial) (fun _ _ => trivial) work

end Reticent

theorem job_hushed {body : Process} (job : Job body) : body.Obeys hushed :=
  job.obeys sparing_jobs

theorem hushed_closed : hushed.Closed :=
  sparing_closed fun _ _ => trivial

theorem reserved_closed : reserved.Closed :=
  sparing_closed fun _ => job_hushed

theorem announcing_closed : announcing.Closed :=
  sparing_closed fun _ => job_hushed

/-- What a hushed process does may be done by a reserved one. -/
theorem reserved_of_hushed {process : Process} {act : Act} (obeys : process.Obeys hushed)
    (acts : process.act? = some act) : reserved.allows act := by
  cases obeys with
  | stop ended => cases ended.act?.symm.trans acts
  | ask allowed =>
    cases acts
    rename_i request _ _
    cases request <;> exact allowed
  | call allowed => cases acts; exact allowed
  | leave => cases acts; trivial
  | add _ work => cases acts; exact work trivial
  | await => cases acts; trivial
  | join => cases acts; trivial
  | wait => cases acts; trivial
  | yield => cases acts; trivial

/-! ## The collector in its place -/

/-- What a task is run beside: a loop in which the collector is subscribed, and nothing touches its
subscriptions. -/
structure Watching (host : Nat) (passed : History) (world : World) : Prop
    extends Looped host passed world where
  watched : world.Watched
  discreet : world.Discreet

/-- What may come from outside: hushed processes. The loop, the results and the collector's
subscriptions stay as they are, and the clock is not set back. -/
def unobtrusively (world next : World) : Prop :=
  Intervention (fun process => (process.Obeys mute ∧ process.Obeys hushed) ∧ process.Discreet)
    world next ∧
  next.looping = world.looping ∧ next.results = world.results ∧ (world.Watched → next.Watched) ∧
  world.clock.microseconds ≤ next.clock.microseconds

theorem unobtrusively.leisurely {world next : World} (comes : unobtrusively world next) :
    leisurely world next :=
  ⟨comes.1.mono fun _ brought => brought.1.1, comes.2.1⟩

/-- Nobody but a run emits an event of the collector, no listener fails, and the clock shows a date
and does not go back. -/
structure World.Punctual (world : World) : Prop where
  genuine : world.Genuine
  unfailing : ∀ owner act, world.act? = some (owner, act) → act.Unfailing
  dated : world.clock.Dated
  onward : ∀ next, world.step? = some next → world.clock.microseconds ≤ next.clock.microseconds

instance : DecidablePred World.Punctual := fun world =>
  decidable_of_iff (world.Genuine ∧ (∀ found ∈ world.act?, found.2.Unfailing) ∧ world.clock.Dated ∧
      ∀ next ∈ world.step?, world.clock.microseconds ≤ next.clock.microseconds)
    ⟨fun ⟨genuine, unfailing, dated, onward⟩ =>
      ⟨genuine, fun owner act acts => unfailing (owner, act) acts, dated, onward⟩,
      fun punctual => ⟨punctual.genuine, fun found acts => punctual.unfailing found.1 found.2 acts,
        punctual.dated, punctual.onward⟩⟩

section Watching

variable {host : Nat} {passed : History} {world next : World}

theorem World.Discreet.between (discreet : world.Discreet)
    (between : world.Between (Intervention Process.Discreet) next) : next.Discreet := by
  cases between with
  | turn => exact discreet.congr rfl rfl
  | gate gate idle => exact discreet.openGate gate
  | outside comes =>
    cases comes with
    | enters brought idle =>
      refine ⟨discreet.tasks, ?_⟩
      rintro owner process ⟨⟩
      exact brought
    | spawns brought => exact discreet.spawn brought
    | watches task callable => exact discreet.watch task _
    | alters apart => exact discreet.congr (by rw [apart]) (by rw [apart])

theorem World.Discreet.watched (discreet : world.Discreet) (watched : world.Watched)
    (stepped : world.Stepped next) : next.Watched := by
  refine stepped.watched watched fun owner event listener acts => ?_
  have asked {request : Request} (acts : world.act? = some (owner, .ask request)) :
      request.Discreet := by
    obtain ⟨process, running, acts⟩ := running_of_act? acts
    cases discreet.current owner process running with
    | ask scripted =>
      cases acts
      exact scripted
    | _ => cases acts
  rcases acts with acts | acts
  · exact asked acts (.on event listener) rfl
  · exact asked acts (.off event listener) rfl

theorem Watching.step (here : Watching host passed world) (moved : world.step? = some next) :
    Watching host (passed ++ [world]) next where
  toLooped := (looped host).step here.toLooped trivial moved
  watched := here.discreet.watched here.watched (step?_stepped here.wired moved)
  discreet := (Edited.step here.discreet moved).discreet

theorem Watching.between (here : Watching host passed world)
    (between : world.Between unobtrusively next) : Watching host passed next where
  toLooped := (looped host).between here.toLooped (between.mono fun comes => comes.leisurely)
  watched := by
    rcases between.calm_or with calm | comes
    · exact calm.toFlows.alike.watched here.watched
    · exact comes.2.2.2.1 here.watched
  discreet := here.discreet.between
    (between.mono fun comes => comes.1.mono fun _ brought => brought.2)

/-- The setting in which a task runs suites and tests while the collector attends. -/
def attended (host : Nat) : Setting where
  outside := unobtrusively
  fair := World.Punctual
  holds := Watching host
  wired here := here.wired
  uncancelled here := here.uncancelled
  step here _ moved := here.step moved
  between here between := here.between between
  apart here comes := (looped host).apart here.toLooped comes.leisurely

end Watching

/-! ## Periods in worlds -/

/-- Apart from a host, all are hushed but for some tasks that tell of the ends of tests. -/
def World.Hushed (host : Nat) (tellers : List Nat) (world : World) : Prop :=
  ∀ owner process, owner ≠ .task host → world.process? owner = some process →
    process.Obeys hushed ∨
      (∃ number ∈ tellers, owner = .task number) ∧ process.Obeys announcing

/-- What a host runs is in some period for the collector. A test is being run while tasks are left
that tell of its end. -/
structure World.Amidst (host : Nat) (tellers : List Nat) (period : Period) (world : World) : Prop where
  quiet : world.Hushed host tellers
  testing : tellers ≠ [] → period.Testing
  follows : Results.Follows period world.clock.microseconds world.results

section Steps

variable {host : Nat} {tellers tellers' : List Nat} {period : Period} {passed : History}
  {world next : World} {owner : Owner} {act : Act}

theorem sparing_grants {kinds : CollectorEvent → Prop} {bodies : Process → Prop} {covers : Prop}
    (here : Watching host passed world) (genuine : world.Genuine) {request : Request}
    (acts : world.act? = some (owner, .ask request)) :
    (sparing kinds bodies covers).grants request (world.respond request).1 := by
  have fair := here.uncancelled.fair request
  cases request with
  | subscribers role event args =>
    intro due owes
    rw [Accounted.owed_of_subscribers here.watched] at owes
    have known : collectorEvent? event = some due.1 := by
      obtain ⟨kind, member, rfl⟩ := List.mem_map.1 owes
      simpa using member
    refine ⟨?_, known⟩
    by_contra other
    cases known.symm.trans (genuine _ _ _ _ acts other)
  | _ => exact fair

theorem reserved_suits : (attended host).Suits host reserved where
  closed := reserved_closed
  waits _ := Act.unfailing_of_waits
  assumes _ punctual acts := punctual.unfailing _ _ acts
  grants here punctual acts := sparing_grants here punctual.genuine acts
  numbers _ _ := trivial

theorem World.Hushed.acts (quiet : world.Hushed host tellers) (apart : owner ≠ .task host)
    (acts : world.act? = some (owner, act)) : reserved.allows act ∨
      (∃ number ∈ tellers, owner = .task number) ∧ announcing.allows act := by
  obtain ⟨process, running, acts'⟩ := running_of_act? acts
  rcases quiet owner process apart (process?_of_running running) with obeys | ⟨teller, obeys⟩
  · exact .inl (reserved_of_hushed obeys acts')
  · exact .inr ⟨teller, obeys.allowed acts'⟩

/-- What is added in a step is hushed, or tells of the end of a test. -/
theorem World.Hushed.step (quiet : world.Hushed host tellers) (here : Watching host passed world)
    (punctual : world.Punctual) (moved : world.step? = some next)
    (more : ∀ number ∈ tellers, number ∈ tellers')
    (added : ∀ owner role name body, world.act? = some (owner, .add role name body) →
      body.Obeys hushed ∨ world.tasks.length ∈ tellers' ∧ body.Obeys announcing) :
    next.Hushed host tellers' := by
  intro owner after apart left
  have wired := here.wired
  have evolves := (step?_stepped wired moved).evolves left
  have uncancelled := (here.step moved).uncancelled
  by_cases new : owner = .task world.tasks.length
  · subst new
    have beyond {process : Process}
        (left : world.process? (.task world.tasks.length) = some process) : False :=
      Nat.lt_irrefl _ (process?_lt wired left)
    cases evolves with
    | passes left => exact (beyond left).elim
    | asks running => exact (beyond (process?_of_running running)).elim
    | calls running => exact (beyond (process?_of_running running)).elim
    | leaves running => exact (beyond (process?_of_running running)).elim
    | adds running => exact (beyond (process?_of_running running)).elim
    | added adds =>
      rcases added _ _ _ _ adds with plain | ⟨member, tells⟩
      · exact .inl (task_sparing plain)
      · exact .inr ⟨⟨_, member, rfl⟩, task_sparing tells⟩
    | stands recovers tail => exact .inl (abandoned_keeps trivial)
    | told caller => cases caller
  · have stays {kinds : CollectorEvent → Prop} {bodies : Process → Prop} {covers : Prop}
        (jobs : ∀ body, Job body → bodies body) (before : ∀ process,
          world.process? owner = some process → process.Obeys (sparing kinds bodies covers)) :
        after.Obeys (sparing kinds bodies covers) :=
      evolves.obeys uncancelled (sparing_closed jobs) (fun _ => Act.unfailing_of_waits)
        (fun act acts => punctual.unfailing _ _ acts)
        (fun request acts => sparing_grants here punctual.genuine acts)
        (fun _ _ _ _ _ => trivial) (fun _ _ => nofun) new before
    cases before : world.process? owner with
    | none => exact .inl (stays (fun _ _ => trivial) fun _ left => nomatch before.symm.trans left)
    | some process =>
      have same {other : Process} (left : world.process? owner = some other) : process = other :=
        Option.some.inj (before.symm.trans left)
      rcases quiet owner process apart before with obeys | ⟨⟨number, member, mine⟩, obeys⟩
      · exact .inl (stays (fun _ _ => trivial) fun _ left => same left ▸ obeys)
      · exact .inr ⟨⟨number, more number member, mine⟩,
          stays (fun _ => job_hushed) fun _ left => same left ▸ obeys⟩

namespace World.Amidst

/-- As long as its host is reserved, whatever is done leaves the collector in the period in which it
is. -/
theorem step (amidst : world.Amidst host tellers period) (here : Watching host passed world)
    (punctual : world.Punctual) (moved : world.step? = some next)
    (mine : ∀ act, world.act? = some (.task host, act) → reserved.allows act) :
    next.Amidst host tellers period := by
  have stepped := step?_stepped here.wired moved
  have known (owner : Owner) (act : Act) (acts : world.act? = some (owner, act)) :
      reserved.allows act ∨ (∃ number ∈ tellers, owner = .task number) ∧ announcing.allows act := by
    by_cases same : owner = .task host
    · exact .inl (mine act (same ▸ acts))
    · exact amidst.quiet.acts same acts
  constructor
  case quiet =>
    refine amidst.quiet.step here punctual moved (fun _ => id) ?_
    exact fun owner role name body adds => .inl ((known _ _ adds).elim id And.right)
  case testing => exact amidst.testing
  case follows =>
    refine Results.Follows.later ?_ (punctual.onward next moved)
    rw [stepped.results]
    unfold heard?
    split
    · rename_i owner kind args acts
      rcases known _ _ acts with quiet | ⟨⟨number, member, _⟩, closing⟩
      · exact quiet.elim
      · exact amidst.follows.hears punctual.dated
          (.closing (amidst.testing (List.ne_nil_of_mem member)) closing args)
    · exact amidst.follows

theorem between (amidst : world.Amidst host tellers period) (here : Watching host passed world)
    (between : world.Between unobtrusively next) : next.Amidst host tellers period := by
  have uncancelled := (here.between between).uncancelled
  constructor
  case quiet =>
    intro owner after apart left
    rcases (between.mono And.left).passes_or here.wired left with
      ⟨before, left', passes⟩ | ⟨brought, _⟩
    · rcases amidst.quiet owner before apart left' with obeys | ⟨teller, obeys⟩
      · exact .inl (passes.obeys uncancelled hushed_closed (fun _ => Act.unfailing_of_waits) obeys)
      · exact .inr ⟨teller,
          passes.obeys uncancelled announcing_closed (fun _ => Act.unfailing_of_waits) obeys⟩
    · exact .inl brought.1.2
  case testing => exact amidst.testing
  case follows =>
    rcases between.calm_or with calm | comes
    · have clock : next.clock = world.clock := by
        change next.scene.clock = world.scene.clock
        rw [calm.toFlows.scene]
      rw [calm.toFlows.alike.results, clock]
      exact amidst.follows
    · rw [comes.2.2.1]
      exact amidst.follows.later comes.2.2.2.2

theorem lasts : (attended host).Lasts host reserved.allows
    fun _ world => world.Amidst host tellers period where
  step here amidst punctual moved _ mine := amidst.step here punctual moved mine
  between here amidst between _ := amidst.between here between

/-- Tellers that have ended tell nothing any more. -/
theorem settled (amidst : world.Amidst host tellers period) (here : Watching host passed world)
    (ended : ∀ number ∈ tellers, (world.outcome? number).isSome) :
    world.Amidst host [] period where
  quiet owner process apart left := by
    refine .inl ?_
    rcases amidst.quiet owner process apart left with obeys | ⟨⟨number, member, rfl⟩, _⟩
    · exact obeys
    · obtain ⟨outcome, ended⟩ := Option.isSome_iff_exists.1 (ended number member)
      cases left.symm.trans (process?_of_outcome here.wired ended)
      exact .stop (here.uncancelled.plain ended)
  testing none := absurd rfl none
  follows := amidst.follows

end World.Amidst

end Steps

end FeatureRunner
