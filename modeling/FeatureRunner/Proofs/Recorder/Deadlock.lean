import FeatureRunner.Proofs.Recorder.Deeds
import FeatureRunner.Proofs.Suite.Law
import FeatureRunner.Proofs.World.Waits

/-!
Who waits for whom. A process waits for tasks that it has added itself and for the chain as it found
it, and a task of the chain for the one before it. So whoever waits, waits for a later session, or
for an earlier task of the same one, unless it waits for itself or for a task that is queued behind
it. Nothing else can get stuck.

Main statement: `stuck_behind_itself`.
-/

namespace FeatureRunner
open FeatureRunner.World

/-! ## Processes that wait for what they know -/

/-- What a process may do that knows some tasks. -/
def Act.Attends (fresh : Process → Prop) (known : Nat → Prop) : Act → Prop
  | .await task | .join task => known task
  | .add _ _ body => fresh body
  | _ => True

/-- The law to wait for known tasks only. What is added, and the end of the chain, becomes known. -/
def knowing (fresh : Process → Prop) (known : Nat → Prop) : Law where
  allows := Act.Attends fresh known
  assumes _ := True
  grants
    | .tail, answer => ∀ task, answer = some task → known task
    | request, answer => request.Fair answer
  numbers := known
  covers := False

/-- A body that knows no task when it begins, and adds only such bodies. -/
def Process.Fresh (body : Process) : Prop :=
  ∃ fresh : Process → Prop, fresh body ∧
    ∀ body, fresh body → ∀ known, body.Obeys (knowing fresh known)

abbrev attentive (known : Nat → Prop) : Law :=
  knowing Process.Fresh known

theorem Process.Fresh.obeys {body : Process} (fresh : body.Fresh) (known : Nat → Prop) :
    body.Obeys (attentive known) := by
  obtain ⟨family, inside, obey⟩ := fresh
  refine (obey body inside known).mono_law (fun act allowed => ?_) (fun _ => id) (fun _ _ => id)
    (fun _ => id) id
  cases act with
  | add role name body => exact ⟨family, allowed, obey⟩
  | _ => exact allowed

section Knowing

variable {fresh : Process → Prop} {known : Nat → Prop}

theorem knowing_listeners : (knowing fresh known).AdmitsListeners where
  collects _ _ _ _ _ _ _ _ := trivial
  calls _ _ _ := trivial
  leaves _ := trivial

theorem knowing_jobs : (knowing fresh known).AdmitsJobs where
  toAdmitsListeners := knowing_listeners
  asks _ _ := trivial
  fair _ _ fair := fair
  performs _ _ _ _ := trivial
  performed _ _ _ := trivial

omit fresh known in
theorem Job.is_fresh {body : Process} (job : Job body) : body.Fresh :=
  ⟨Job, job, fun _ job _ => job.obeys knowing_jobs⟩

omit fresh known in
theorem announcement_fresh (event : String) (args : List Value) : (announcement event args).Fresh :=
  ⟨(· = announcement event args), rfl, by
    rintro _ rfl known
    exact announcement_obeys knowing_listeners trivial⟩

theorem attentive_scripts (role : Role) (suspends : Bool) :
    (attentive known).AdmitsScripts role suspends where
  toAdmitsListeners := knowing_listeners
  asks _ _ := trivial
  adds _ _ job := job.is_fresh
  works covers := covers.elim
  awaits _ _ _ _ _ numbered := numbered
  waits _ := ⟨fun _ => trivial, trivial⟩

theorem attentive_closed : (attentive known).Closed :=
  fun role callable args _ => callable.process_obeys (attentive_scripts role _) args

theorem attentive_drains : (attentive known).AdmitsDrains where
  outcomes _ := trivial
  fair _ _ fair := fair

theorem attentive_runs : (attentive known).AdmitsRuns where
  toAdmitsListeners := knowing_listeners
  toAdmitsDrains := attentive_drains
  emits _ _ := trivial
  operates _ := trivial
  steps _ _ := trivial
  stepped _ := trivial
  adds _ event args := announcement_fresh event args
  works covers := covers.elim
  tail := trivial
  joins task granted := granted task rfl

end Knowing

/-! ## What is known -/

/-- A link is added to a later session, or it is not before the other in its own. -/
def Link.Before (link later : Link) : Prop :=
  link.session < later.session ∨ link.session = later.session ∧ link.number ≤ later.number

/-- A process that knows the end of the chain at most. -/
def World.Brings (world : World) (process : Process) : Prop :=
  process.Obeys mute ∧ ∀ known : Nat → Prop,
    (∀ task, world.recorder.tail = some task → known task) → process.Obeys (attentive known)

/-- Whoever comes from outside knows the end of the chain at most. -/
def attentively (world : World) : World → Prop :=
  Intervention world.Brings world

section Brings

variable (world : World)

theorem World.brings_call (role : Role) (callable : Callable) (args : List Value) :
    world.Brings (callable.process role args) :=
  ⟨callable.process_obeys (mute_scripts role _) args, fun _ _ =>
    callable.process_obeys (attentive_scripts role _) args⟩

theorem World.brings_test (test : Test) : world.Brings test.run.toProcess :=
  ⟨(test.run_obeys mute_runs).toProcess, fun _ _ => (test.run_obeys attentive_runs).toProcess⟩

theorem World.brings_suite (suite : Suite) : world.Brings suite.run.toProcess :=
  ⟨(suite.run_obeys mute_runs).toProcess, fun _ _ => (suite.run_obeys attentive_runs).toProcess⟩

/-- Whoever waits for the chain as it is may come. -/
theorem World.brings_drain : world.Brings (Recorder.drain world.recorder.tail).toProcess := by
  have drains {law : Law} (admits : law.AdmitsDrains)
      (waits : ∀ task, world.recorder.tail = some task → law.allows (.join task)) :
      (Recorder.drain world.recorder.tail).Obeys law := by
    cases tail : world.recorder.tail with
    | none => exact .pure _
    | some task => exact settled_obeys admits (waits task tail)
  exact ⟨(drains mute_runs.toAdmitsDrains fun _ _ => by simp [mute]).toProcess,
    fun _ knows => (drains attentive_drains knows).toProcess⟩

end Brings

/-- Links know the one before them and those behind, and others know any. -/
structure Patient (passed : History) (world : World) : Prop where
  serial : Serial passed world
  links : ∀ link ∈ passed.links, ∀ process, world.process? (.task link.number) = some process →
    ∀ known : Nat → Prop, (∀ later ∈ passed.links, link.Before later → known later.number) →
      (∀ previous, link.previous = some previous → known previous) →
      process.Obeys (attentive known)
  others : ∀ owner process, world.process? owner = some process →
    (∀ link ∈ passed.links, owner ≠ .task link.number) →
    ∀ known : Nat → Prop, (∀ link ∈ passed.links, known link.number) →
      process.Obeys (attentive known)

namespace Patient

variable {passed : History} {world next : World} {link : Link} {known : Nat → Prop}

theorem fresh_of_add (patient : Patient passed world) {owner : Owner} {role : Role} {name : String}
    {body : Process} (acts : world.act? = some (owner, .add role name body)) : body.Fresh := by
  obtain ⟨process, running, adds⟩ := running_of_act? acts
  have left := process?_of_running running
  by_cases linked : ∃ link ∈ passed.links, owner = .task link.number
  · obtain ⟨link, member, rfl⟩ := linked
    have obeys := patient.links link member process left (fun _ => True) (by simp) (by simp)
    exact obeys.allowed adds
  · have obeys := patient.others owner process left
      (fun link member same => linked ⟨link, member, same⟩) (fun _ => True) (by simp)
    exact obeys.allowed adds

/-- What a link asks for becomes known to it, and is not before it. -/
theorem granted (serial : Serial passed world) (member : link ∈ passed.links)
    (knows : ∀ later ∈ passed.links, link.Before later → known later.number) (request : Request) :
    (attentive known).grants request (world.respond request).1 := by
  have fair := serial.uncancelled.fair request
  cases request with
  | tail =>
    intro task behind
    obtain ⟨_, anchor, inside, rfl, present⟩ := serial.tail.anchored task behind
    refine knows anchor inside ?_
    rcases Nat.lt_or_eq_of_le (serial.sessions link member) with past | mine
    · exact .inl (present ▸ past)
    · have upTo := (serial.tail.covered link member mine (serial.inside link member)).1 _ behind
      exact .inr ⟨mine.trans present.symm, upTo⟩
  | outcome task => exact fair
  | _ => trivial

theorem before_new (serial : Serial passed world) (member : link ∈ passed.links) {new : Link}
    (made : world.link? = some new) : link.Before new := by
  obtain ⟨number, present⟩ := Serial.number_of_link made
  have upTo := serial.sessions link member
  have below := serial.inside link member
  rw [Link.Before]
  omega

/-- A new link waits for the one before it and knows no other. -/
theorem begins (patient : Patient passed world) (made : world.link? = some link)
    (previous : ∀ number, link.previous = some number → known number) :
    link.process.Obeys (attentive known) := by
  obtain ⟨number, session, behind, work⟩ := link
  rcases World.link?_cases made with ⟨_, _, name, body, acts, rfl⟩ | ⟨⟨before, rfl⟩, rfl⟩
  · exact task_keeps attentive_drains (fun _ _ => trivial) previous
      ((patient.fresh_of_add acts).obeys known)
  · exact abandoned_keeps (previous before rfl)

theorem step (patient : Patient passed world) (moved : world.step? = some next) :
    Patient (passed ++ [world]) next := by
  have serial := patient.serial
  have serial' := serial.step moved
  have stepped := step?_stepped serial.wired moved
  have member {link : Link} : link ∈ History.links (passed ++ [world]) ↔
      link ∈ passed.links ∨ world.link? = some link := by
    rw [History.links_append, List.mem_append, Option.mem_toList]
  have made {role : Role} {name : String} {body : Process} {owner : Owner}
      (acts : world.act? = some (owner, .add role name body)) (looping : world.looping = true) :
      ∃ new, world.link? = some new ∧ new.number = world.tasks.length := by
    refine ⟨⟨world.tasks.length, world.recorder.session, world.recorder.tail, some (name, body)⟩,
      by simp [World.link?, acts, looping], rfl⟩
  constructor
  case serial => exact serial'
  case links =>
    intro link inside after left known knows previous
    have evolves := stepped.evolves left
    rcases member.1 inside with old | new
    · have below := serial.inside link old
      refine evolves.obeys serial'.uncancelled attentive_closed (fun _ _ => trivial)
        (fun _ _ => trivial) (fun request _ => granted serial old ?_ request) ?_
        (fun _ _ => trivial) (fun same => Nat.ne_of_lt below (Owner.task.inj same)) ?_
      · exact fun later found before => knows later (member.2 (.inl found)) before
      · intro role name body acts looping
        obtain ⟨new, made, number⟩ := made acts looping
        exact number ▸ knows new (member.2 (.inr made)) (before_new serial old made)
      · exact fun before left' => patient.links link old before left' known
          (fun later found before => knows later (member.2 (.inl found)) before) previous
    · rw [(Serial.number_of_link new).1] at left
      obtain ⟨other, new', rfl⟩ := (stepped.evolves left).begins serial.wired
      cases Option.some.inj (new.symm.trans new')
      exact patient.begins new previous
  case others =>
    intro owner after left apart known knows
    have evolves := stepped.evolves left
    refine evolves.obeys serial'.uncancelled attentive_closed (fun _ _ => trivial)
      (fun _ _ => trivial) (fun request _ => ?_) ?_ (fun _ _ => trivial) ?_ ?_
    · cases request with
      | tail =>
        intro task behind
        obtain ⟨_, anchor, inside, rfl, _⟩ := serial.tail.anchored task behind
        exact knows anchor (member.2 (.inl inside))
      | outcome task => exact serial.uncancelled.fair (.outcome task)
      | _ => trivial
    · intro role name body acts looping
      obtain ⟨new, made, number⟩ := made acts looping
      exact number ▸ knows new (member.2 (.inr made))
    · rintro rfl
      obtain ⟨new, made, _⟩ := evolves.begins serial.wired
      exact apart new (member.2 (.inr made)) (by rw [(Serial.number_of_link made).1])
    · exact fun before left' => patient.others owner before left'
        (fun link inside => apart link (member.2 (.inl inside))) known
        fun link inside => knows link (member.2 (.inl inside))

theorem between (patient : Patient passed world) (between : world.Between attentively next) :
    Patient passed next := by
  have serial := patient.serial
  have between : world.Between (Intervention world.Brings) next := between.mono id
  have serial' := serial.between (between.mono fun comes => comes.mono fun _ brought => brought.1)
  constructor
  case serial => exact serial'
  case links =>
    intro link inside after left known knows previous
    rcases between.passes_or serial.wired left with ⟨before, left', passes⟩ | ⟨_, new⟩
    · exact passes.obeys serial'.uncancelled attentive_closed (fun _ _ => trivial)
        (patient.links link inside before left' known knows previous)
    · exact absurd (serial.inside link inside) (Nat.not_lt_of_le (new _ rfl))
  case others =>
    intro owner after left apart known knows
    rcases between.passes_or serial.wired left with ⟨before, left', passes⟩ | ⟨brought, _⟩
    · exact passes.obeys serial'.uncancelled attentive_closed (fun _ _ => trivial)
        (patient.others owner before left' apart known knows)
    · refine brought.2 known fun task behind => ?_
      obtain ⟨_, anchor, inside, rfl, _⟩ := serial.tail.anchored task behind
      exact knows anchor inside

theorem of_run {clock : Calendar.Moment} (run : Run attentively (World.initial clock) passed world) :
    Patient passed world := by
  induction run with
  | refl =>
    refine ⟨.initial clock, by simp [History.links], fun owner process left => ?_⟩
    cases owner <;> cases left
  | step _ moved ih => exact ih.step moved
  | between _ between ih => exact ih.between between

end Patient

/-! ## Who is stuck -/

/-- A task of the chain waits for itself or for a task that is queued behind it. -/
def World.History.Stuck (passed : History) (world : World) (link : Link) : Prop :=
  ∃ later ∈ passed.links, link.session = later.session ∧ link.number ≤ later.number ∧
    ∃ process, world.process? (.task link.number) = some process ∧
      world.Pends process later.number

section Stuck

variable {passed : History} {world next : World} {link : Link}

/-- Where nothing is left to do, whoever is not behind a stuck task has ended: he would wait for a
later session, or for an earlier task of his own. -/
theorem Patient.settled (patient : Patient passed world) (still : world.Still)
    (free : ∀ link ∈ passed.links, ¬passed.Stuck world link) :
    ∀ number < world.tasks.length, (world.outcome? number).isSome := by
  have serial := patient.serial
  have chain (rank : Nat) : ∀ link ∈ passed.links, world.recorder.session - link.session = rank →
      (world.outcome? link.number).isSome := by
    induction rank using Nat.strongRecOn with
    | ind rank later =>
      intro link member ranked
      induction number : link.number using Nat.strongRecOn generalizing link with
      | ind number earlier =>
        subst number
        by_contra unsettled
        have unsettled := Option.not_isSome_iff_eq_none.1 unsettled
        obtain ⟨process, left⟩ := process?_isSome (serial.inside link member)
        obtain ⟨task, acts, pending, inside⟩ := still.pends serial.wired left unsettled
        have obeys := patient.links link member process left
          (fun task => (∃ later ∈ passed.links, link.Before later ∧ later.number = task) ∨
            link.previous = some task)
          (fun later found before => .inl ⟨later, found, before, rfl⟩) fun _ => .inr
        have waits : (∃ later ∈ passed.links, link.Before later ∧ later.number = task) ∨
            link.previous = some task := by
          rcases acts with acts | acts <;> exact obeys.allowed acts
        rcases waits with ⟨other, found, before, rfl⟩ | behind
        · rcases before with past | ⟨mine, upTo⟩
          · have present := serial.sessions other found
            have ended := later _ (by omega) other found rfl
            simp [pending] at ended
          · exact free link member ⟨other, found, mine, upTo, process, left, acts, pending, inside⟩
        · obtain ⟨below, anchor, found, rfl, mine⟩ := (serial.follows link member).anchored task behind
          have ended := earlier _ below anchor found (mine ▸ ranked) rfl
          simp [pending] at ended
  intro number inside
  by_cases linked : ∃ link ∈ passed.links, link.number = number
  · obtain ⟨link, member, rfl⟩ := linked
    exact chain _ link member rfl
  · by_contra unsettled
    have unsettled := Option.not_isSome_iff_eq_none.1 unsettled
    obtain ⟨process, left⟩ := process?_isSome inside
    obtain ⟨task, acts, pending, _⟩ := still.pends serial.wired left unsettled
    have obeys := patient.others (.task number) process left
      (fun link member same => linked ⟨link, member, (Owner.task.inj same).symm⟩)
      (fun task => ∃ link ∈ passed.links, link.number = task) fun link member => ⟨link, member, rfl⟩
    obtain ⟨link, member, rfl⟩ : ∃ link ∈ passed.links, link.number = task := by
      rcases acts with acts | acts <;> exact obeys.allowed acts
    simpa [pending] using chain _ link member rfl

theorem World.Pends.act {process : Process} {task : Nat} (pends : world.Pends process task) :
    ∃ act, process.act? = some act ∧ act.Waits ∧ (act = .join task ∨ act = .await task) := by
  obtain ⟨acts | acts, _⟩ := pends
  · exact ⟨_, acts, trivial, .inl rfl⟩
  · exact ⟨_, acts, trivial, .inr rfl⟩

/-- Who waits for a task that has not ended goes on to wait. -/
theorem World.Pends.stays {before after : Process} {task : Nat} (pends : world.Pends before task)
    (passes : before.Passes next after) (length : world.tasks.length ≤ next.tasks.length)
    (pending : next.outcome? task = none) : after = before ∧ next.Pends after task := by
  obtain ⟨waits, _, inside⟩ := pends
  have inside := Nat.lt_of_lt_of_le inside length
  cases passes with
  | refl => exact ⟨rfl, waits, pending, inside⟩
  | await ended =>
    rcases waits with waits | waits <;> cases waits
    simp [pending] at ended
  | awaitNone beyond =>
    rcases waits with waits | waits <;> cases waits
    exact absurd inside (Nat.not_lt_of_le beyond)
  | join ended =>
    rcases waits with waits | waits <;> cases waits
    simp [pending] at ended
    omega
  | wait => rcases waits with waits | waits <;> cases waits
  | yield => rcases waits with waits | waits <;> cases waits

/-- What is queued behind a task that has not ended has not ended either. -/
theorem Serial.unsettled_behind (serial : Serial passed world) {later : Link}
    (member : link ∈ passed.links) (found : later ∈ passed.links)
    (mine : link.session = later.session) (upTo : link.number ≤ later.number)
    (unsettled : world.outcome? link.number = none) : world.outcome? later.number = none := by
  by_contra settled
  have ended := Option.isSome_iff_ne_none.2 settled
  rcases Nat.lt_or_eq_of_le upTo with before | same
  · have late := serial.late_of_settled found ended
    simpa [unsettled] using serial.settled_of_late found late member mine before
  · rw [← same, unsettled] at ended
    cases ended

theorem World.History.Stuck.unsettled (stuck : passed.Stuck world link)
    (serial : Serial passed world) : world.outcome? link.number = none := by
  obtain ⟨later, _, _, _, process, left, pends⟩ := stuck
  by_contra settled
  obtain ⟨outcome, ended⟩ := Option.ne_none_iff_exists'.1 settled
  cases left.symm.trans (process?_of_outcome serial.wired ended)
  obtain ⟨act, acts, _⟩ := pends.act
  cases acts

theorem World.History.Stuck.step (stuck : passed.Stuck world link) (serial : Serial passed world)
    (member : link ∈ passed.links) (moved : world.step? = some next) :
    History.Stuck (passed ++ [world]) next link := by
  have serial' := serial.step moved
  have stepped := step?_stepped serial.wired moved
  have unsettled := stuck.unsettled serial
  have stays {link : Link} (inside : link ∈ passed.links) :
      link ∈ History.links (passed ++ [world]) := by
    rw [History.links_append]
    exact List.mem_append_left _ inside
  obtain ⟨later, found, mine, upTo, process, left, pends⟩ := stuck
  have unsettled' : next.outcome? link.number = none := by
    rcases stepped.outcome? link.number with same | ⟨outcome, running, _⟩
    · exact same.trans unsettled
    · cases left.symm.trans (process?_of_running running)
      obtain ⟨act, acts, _⟩ := pends.act
      cases acts
  have pending := serial'.unsettled_behind (stays member) (stays found) mine upTo unsettled'
  have inside := serial.inside link member
  obtain ⟨after, left'⟩ := process?_isSome (Nat.lt_of_lt_of_le inside stepped.length)
  obtain ⟨act, acts, waits, _⟩ := pends.act
  refine ⟨later, stays found, mine, upTo, after, left', ?_⟩
  cases (stepped.evolves left').goes left inside with
  | passes _ passes => exact (pends.stays passes stepped.length pending).2
  | asks => cases acts; exact waits.elim
  | calls => cases acts; exact waits.elim
  | leaves => cases acts; exact waits.elim
  | adds => cases acts; exact waits.elim

theorem World.History.Stuck.between (stuck : passed.Stuck world link) (serial : Serial passed world)
    (between : world.Between quietly next) : passed.Stuck next link := by
  obtain ⟨later, found, mine, upTo, process, left, pends⟩ := stuck
  have inside := serial.inside later found
  obtain ⟨after, left', passes⟩ := keeping.passes_of_between serial left between
  have pending : next.outcome? later.number = none := by
    rcases between.calm_or with calm | comes
    · exact (calm.outcomes _).trans pends.2.1
    · exact ((comes.apart serial.wired).2 _ inside).2.trans pends.2.1
  exact ⟨later, found, mine, upTo, after, left', (pends.stays passes between.length pending).2⟩

/-- A stuck task stays stuck. -/
theorem stuck_forever (serial : Serial passed world) (member : link ∈ passed.links)
    (stuck : passed.Stuck world link) {further : History} {last : World}
    (run : Run quietly world further last) :
    Serial (passed ++ further) last ∧ link ∈ History.links (passed ++ further) ∧
      History.Stuck (passed ++ further) last link := by
  induction run with
  | refl => simpa using ⟨serial, member, stuck⟩
  | step _ moved ih =>
    obtain ⟨serial, member, stuck⟩ := ih
    rw [← List.append_assoc]
    refine ⟨serial.step moved, ?_, stuck.step serial member moved⟩
    rw [History.links_append]
    exact List.mem_append_left _ member
  | between _ between ih =>
    obtain ⟨serial, member, stuck⟩ := ih
    exact ⟨serial.between between, member, stuck.between serial between⟩

end Stuck

/-- What a run that comes to rest has left undone. -/
theorem stuck_behind_itself {clock : Calendar.Moment} {passed : History} {world : World}
    (run : Run attentively (World.initial clock) passed world) :
    (world.Still → (∀ link ∈ passed.links, ¬passed.Stuck world link) →
      ∀ number < world.tasks.length, (world.outcome? number).isSome) ∧
    ∀ link ∈ passed.links, passed.Stuck world link →
      ∀ further last, Run quietly world further last → last.outcome? link.number = none := by
  have patient := Patient.of_run run
  refine ⟨patient.settled, fun link member stuck further last later => ?_⟩
  obtain ⟨serial, _, stuck⟩ := stuck_forever patient.serial member stuck later
  exact stuck.unsettled serial

/-- A task that dispatches an action and awaits it. -/
def awaitOwn : Program Value :=
  callTask (some (.script "waits" ⟨[], 0, true, []⟩ true false 0 [.awaitAct [.const (.text "a")]]))

/-- Adds such a task. -/
def addWaiting : Program Value := do
  Recorder.call .start
  let _ ← Program.add "waits" awaitOwn
  return .null

/-- A loop in which the task is about to be added. -/
def awaitingWorld : World :=
  { World.initial ⟨0, none⟩ with
    looping := true
    current := some (.caller, addWaiting.toProcess) }

theorem awaitingWorld_run : Run attentively (World.initial ⟨0, none⟩) [] awaitingWorld := by
  have looping : Run attentively (World.initial ⟨0, none⟩) []
      { World.initial ⟨0, none⟩ with looping := true } := Run.refl.between (.outside (.alters rfl))
  have job : Job awaitOwn.toProcess := .callable _
  refine looping.between (.outside (.enters ⟨?_, fun known _ => ?_⟩ rfl))
  · refine Program.Obeys.toProcess (.bind (.bind (.ask (by simp [mute])) fun _ => .ofExcept _) ?_)
    exact fun _ => .bind (.addFor (by simp [mute]) fun _ => job.obeys mute_jobs) fun _ => .pure _
  · refine Program.Obeys.toProcess (.bind (.bind (.ask trivial) fun _ => .ofExcept _) fun _ => ?_)
    exact .bind (.addFor job.is_fresh False.elim) fun _ => .pure _

theorem World.still_of_tasks {world : World} (idle : world.current.isNone = true)
    (ready : world.ready.isEmpty = true) (soon : world.soon.isEmpty = true)
    (ungated : world.tasks.all (fun task => match task.state with
      | .waiting .. => false
      | _ => true) = true) : world.Still := by
  refine ⟨by simpa using idle, by simpa using ready, by simpa using soon, ?_⟩
  intro number gate rest waits
  obtain ⟨task, found, same⟩ := Option.map_eq_some_iff.1 waits
  have here := List.all_eq_true.1 ungated task (List.mem_of_getElem? found)
  simp [same] at here

/-- Nothing is left to do, and a task has not ended: it awaits the action that it has dispatched. -/
theorem unsettled_at_rest : ∃ passed world, Run attentively (World.initial ⟨0, none⟩) passed world ∧
    world.Still ∧ ∃ link ∈ passed.links, world.outcome? link.number = none := by
  let played := World.play 60 awaitingWorld
  have run : Run attentively (World.initial ⟨0, none⟩) played.1 played.2 :=
    awaitingWorld_run.trans (Run.play 60 awaitingWorld)
  have added : ∃ link ∈ played.1.links, (played.2.outcome? link.number).isNone := by
    decide +kernel
  obtain ⟨link, member, unsettled⟩ := added
  exact ⟨_, _, run, World.still_of_tasks (by decide +kernel) (by decide +kernel) (by decide +kernel)
    (by decide +kernel), link, member, by simpa using unsettled⟩

theorem stuck_behind_itself_awaiting : ∃ passed world,
    Run attentively (World.initial ⟨0, none⟩) passed world ∧ ∃ link ∈ passed.links,
      passed.Stuck world link ∧
      ∀ further last, Run quietly world further last → last.outcome? link.number = none := by
  let played := World.play 60 awaitingWorld
  have run : Run attentively (World.initial ⟨0, none⟩) played.1 played.2 :=
    awaitingWorld_run.trans (Run.play 60 awaitingWorld)
  obtain ⟨settles, forever⟩ := stuck_behind_itself run
  by_contra free
  have free (link : Link) (member : link ∈ played.1.links) : ¬played.1.Stuck played.2 link :=
    fun stuck => free ⟨_, _, run, link, member, stuck, forever link member stuck⟩
  have ended := settles (World.still_of_tasks (by decide +kernel) (by decide +kernel)
    (by decide +kernel) (by decide +kernel)) free 0 (by decide +kernel)
  have pending : (played.2.outcome? 0).isSome = false := by decide +kernel
  rw [pending] at ended
  cases ended

end FeatureRunner
