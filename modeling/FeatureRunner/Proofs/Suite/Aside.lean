import FeatureRunner.Proofs.Suite.Law
import FeatureRunner.Proofs.Suite.Ledger
import FeatureRunner.Proofs.World.Outside

/-!
The setting of a suite run: a task of a session's loop, with bystanders at its side. What
bystanders do enters nothing into the ledger and leaves the chain sound: its last task has ended
well, or stands for an abandoned chain and will.
-/

namespace FeatureRunner
open FeatureRunner.World

/-! ## The setting -/

/-- The next step begins a session or detaches the chain, other than for a run. -/
def World.Detaches (world : World) : Prop :=
  ∃ owner role call, world.act? = some (owner, .ask (.recorder role call)) ∧ role ≠ .run ∧
    call ≠ .stop ∧ (call = .startUnlessRunning → world.recorder.running = false)

theorem World.detaches_iff {world : World} : world.Detaches ↔ ∃ found ∈ world.act?,
    match found.2 with
    | .ask (.recorder role call) => role ≠ .run ∧ call ≠ .stop ∧
      (call = .startUnlessRunning → world.recorder.running = false)
    | _ => False := by
  constructor
  · rintro ⟨owner, role, call, acts, detaches⟩
    exact ⟨_, acts, detaches⟩
  · rintro ⟨⟨owner, act⟩, acts, detaches⟩
    split at detaches
    · rename_i role call same
      exact ⟨owner, role, call, same ▸ acts, detaches⟩
    · exact detaches.elim

instance (world : World) : Decidable world.Detaches :=
  haveI (found : Owner × Act) : Decidable (match found.2 with
      | .ask (.recorder role call) => role ≠ .run ∧ call ≠ .stop ∧
        (call = .startUnlessRunning → world.recorder.running = false)
      | _ => False) := by split <;> infer_instance
  decidable_of_iff _ World.detaches_iff.symm

/-- No listener fails, and only runs and steps add tasks. Besides, the chain may be known to stay
attached. -/
structure World.Orderly (attached : Prop) (world : World) : Prop where
  granted : ∀ owner act, world.act? = some (owner, act) → act.Granted
  attached : attached → ¬world.Detaches

instance (attached : Prop) [Decidable attached] (world : World) : Decidable (world.Orderly attached) :=
  decidable_of_iff ((∀ found ∈ world.act?, found.2.Granted) ∧ (attached → ¬world.Detaches))
    ⟨fun orderly => ⟨fun owner act acts => orderly.1 (owner, act) acts, orderly.2⟩,
      fun orderly => ⟨fun found acts => orderly.granted found.1 found.2 acts, orderly.attached⟩⟩

/-- What may come from outside: bystanders that write nothing to the trace. The loop stays. -/
def besides (world next : World) : Prop :=
  Intervention (fun process => process.Obeys mute ∧ process.Obeys (bystander 0)) world next ∧
    next.looping = world.looping

/-- What holds all along while a task runs a suite. -/
structure Hosted (task : Nat) (passed : History) (world : World) : Prop where
  serial : Serial passed world
  looping : world.looping = true
  inside : task < world.tasks.length
  apart : ∀ link ∈ passed.links, link.number ≠ task

/-- The setting in which a task runs a suite. -/
def hosting (task : Nat) (attached : Prop) : Setting where
  outside := besides
  fair := World.Orderly attached
  holds := Hosted task
  wired hosted := hosted.serial.wired
  uncancelled hosted := hosted.serial.uncancelled
  step {passed world next} hosted _ moved := by
    have stepped := step?_stepped hosted.serial.wired moved
    refine ⟨hosted.serial.step moved, stepped.looping.trans hosted.looping,
      Nat.lt_of_lt_of_le hosted.inside stepped.length, fun link member => ?_⟩
    rw [History.links_append, List.mem_append, Option.mem_toList] at member
    rcases member with old | made
    · exact hosted.apart link old
    · rw [(Serial.number_of_link made).1]
      exact Nat.ne_of_gt hosted.inside
  between {passed world next} hosted between := by
    have serial := hosted.serial.between
      (between.mono fun comes => comes.1.mono fun _ brought => brought.1)
    exact ⟨serial, (looping_of_between between And.right).trans hosted.looping,
      Nat.lt_of_lt_of_le hosted.inside (between.mono fun comes => comes.1).length, hosted.apart⟩
  apart hosted comes := comes.1.apart hosted.serial.wired

/-- Any law for which what is known of all that is done is enough suits a task of the setting. -/
theorem suits {task : Nat} {attached : Prop} {law : Law} (closed : law.Closed) (assumes : law.assumes = Act.Granted)
    (grants : law.grants = Request.Fair) (numbers : ∀ number, task < number → law.numbers number) :
    (hosting task attached).Suits task law where
  closed := closed
  waits act waits := by
    rw [assumes]
    cases act with
    | ask => exact waits.elim
    | call => trivial
    | leave => exact waits.elim
    | add => exact waits.elim
    | await => trivial
    | join => trivial
    | wait => trivial
    | yield => trivial
  assumes _ orderly acts := by
    rw [assumes]
    exact orderly.granted _ _ acts
  grants {passed world request} hosted _ _ := by
    rw [grants]
    exact hosted.serial.uncancelled.fair request
  numbers _ inside := numbers _ inside

/-! ## Bystanders -/

/-- The bound of what a process may join. -/
def Owner.place : Owner → Nat
  | task number => number
  | caller => 0

/-- All but some tasks are modest: they speak for some roles, and each waits for some tasks only. -/
def Among (speaks : Role → Prop) (joins : Owner → Nat → Prop) (world : World) (busy : List Nat) :
    Prop :=
  ∀ owner process, (∀ number ∈ busy, owner ≠ .task number) →
    world.process? owner = some process → process.Obeys (modest speaks (joins owner))

/-- All but some tasks are bystanders. -/
abbrev Aside : World → List Nat → Prop :=
  Among (· ≠ .run) fun owner number => number < owner.place

section Bystanders

variable {task : Nat} {attached : Prop} {passed : History} {world next : World} {busy : List Nat}
  {speaks : Role → Prop} {joins : Owner → Nat → Prop}

theorem granted_of_waits {act : Act} (waits : act.Waits) : act.Granted := by
  cases act with
  | leave => exact waits.elim
  | add => exact waits.elim
  | _ => trivial

theorem Among.step (among : Among speaks joins world busy)
    (others : ∀ role, role ≠ .run → speaks role) (hosted : Hosted task passed world)
    (orderly : world.Orderly attached) (moved : world.step? = some next)
    (waits : ∀ number, world.recorder.tail = some number →
      joins (.task world.tasks.length) number)
    (fresh : ∀ owner role name body, world.act? = some (owner, .add role name body) →
      world.tasks.length ∈ busy ∨ body.Obeys (modest speaks (· < 0))) :
    Among speaks joins next busy := by
  intro owner after apart left
  have wired := hosted.serial.wired
  have evolves := (step?_stepped wired moved).evolves left
  have uncancelled := (hosted.serial.step moved).uncancelled
  by_cases new : owner = .task world.tasks.length
  · subst new
    have beyond {process : Process}
        (left : world.process? (.task world.tasks.length) = some process) : False :=
      Nat.lt_irrefl _ (process?_lt wired left)
    cases evolves with
    | passes left => exact (beyond left).elim
    | asks running => exact (beyond (process?_of_running running)).elim
    | calls running => exact (beyond (process?_of_running running)).elim
    | leaves running => exact (beyond (process?_of_running running)).elim
    | adds running => exact (beyond (process?_of_running running)).elim
    | added adds =>
      rcases fresh _ _ _ _ adds with member | plain
      · exact absurd rfl (apart _ member)
      · exact task_keeps modest_drains (fun _ _ => trivial) waits
          (plain.less_modest (fun _ => id) fun _ below => nomatch below)
    | stands recovers tail => exact abandoned_keeps (waits _ tail)
    | told caller => cases caller
  · exact evolves.obeys uncancelled (modest_closed others) (fun _ => granted_of_waits)
      (fun act acts => orderly.granted _ _ acts)
      (fun request _ => hosted.serial.uncancelled.fair request) (fun _ _ _ _ _ => trivial)
      (fun _ _ => ⟨nofun, nofun⟩) new fun process left => among owner process apart left

theorem Among.between (among : Among speaks joins world busy)
    (others : ∀ role, role ≠ .run → speaks role) (hosted : Hosted task passed world)
    (between : world.Between besides next) : Among speaks joins next busy := by
  have uncancelled := ((hosting task True).between hosted between).serial.uncancelled
  intro owner after apart left
  rcases (between.mono And.left).passes_or hosted.serial.wired left with
    ⟨before, left', passes⟩ | ⟨brought, _⟩
  · exact passes.obeys uncancelled (modest_closed others) (fun _ => granted_of_waits)
      (among owner before apart left')
  · exact brought.2.less_modest others fun _ below => nomatch below

theorem Aside.step (aside : Aside world busy) (hosted : Hosted task passed world)
    (orderly : world.Orderly attached) (moved : world.step? = some next)
    (fresh : ∀ owner role name body, world.act? = some (owner, .add role name body) →
      world.tasks.length ∈ busy ∨ body.Obeys (bystander 0)) : Aside next busy :=
  Among.step aside (fun _ apart => apart) hosted orderly moved
    (fun number behind => (hosted.serial.tail.anchored number behind).1) fresh

theorem Aside.between (aside : Aside world busy) (hosted : Hosted task passed world)
    (between : world.Between besides next) : Aside next busy :=
  Among.between aside (fun _ apart => apart) hosted between

end Bystanders

/-! ## What bystanders do -/

/-- The next step waits, or is one that a bystander may take. -/
def World.Beside (world : World) : Prop :=
  ∀ owner act, world.act? = some (owner, act) → act.Waits ∨ act.Aside 0

theorem Act.Aside.beside {act : Act} {bound : Nat} (aside : act.Aside bound) :
    act.Waits ∨ act.Aside 0 := by
  cases act with
  | join task => exact .inl trivial
  | ask request => exact .inr (by cases request <;> exact aside)
  | _ => exact .inr aside

/-- Beside a task that does what a bystander may, everything is done by bystanders. -/
theorem Aside.beside {task : Nat} {world : World} (aside : Aside world [task])
    (mine : ∀ act, world.act? = some (.task task, act) → act.Waits ∨ act.Aside 0) :
    world.Beside := by
  intro owner act acts
  by_cases same : owner = .task task
  · exact mine act (same ▸ acts)
  · obtain ⟨process, running, acts'⟩ := running_of_act? acts
    have obeys := aside owner process (by simpa using same) (process?_of_running running)
    exact Act.Aside.beside (obeys.allowed acts')

namespace World.Beside

variable {attached : Prop} {world next : World} (beside : world.Beside) (orderly : world.Orderly attached)
include beside orderly

theorem not_add {owner : Owner} {role : Role} {name : String} {body : Process} :
    world.act? ≠ some (owner, .add role name body) := by
  intro acts
  rcases beside _ _ acts with waits | apart
  · exact waits
  · exact (orderly.granted _ _ acts).elim (absurd · apart.1) (absurd · apart.2)

theorem entry? : world.entry? = none := by
  unfold World.entry?
  split
  · rename_i acts
    exact (beside _ _ acts).elim False.elim (absurd rfl)
  · rename_i acts
    exact (beside _ _ acts).elim False.elim fun apart => absurd rfl apart.2
  · rename_i acts
    exact absurd acts (not_add beside orderly)
  · rename_i acts
    exact (beside _ _ acts).elim False.elim fun apart => absurd rfl apart.2
  · rfl

theorem work_of_link {link : Link} (made : world.link? = some link) : link.work = none := by
  unfold World.link? at made
  split at made
  · rename_i acts
    exact absurd acts (not_add beside orderly)
  · split at made
    · split at made
      · cases made
      · cases made
        rfl
    · cases made
  · cases made

/-- The chain is left as it is, detached, or abandoned. -/
theorem tail (stepped : world.Stepped next) : next.recorder.tail = world.recorder.tail ∨
    next.recorder.tail = none ∨ ∃ link, world.link? = some link ∧ link.work = none ∧
      next.recorder.tail = some link.number := by
  have chained := Serial.chained_after world
  rw [← stepped.recorder] at chained
  generalize made : world.link? = link? at chained
  cases chained with
  | keeps session tail => exact .inl tail
  | @links link session tail number mine previous =>
    exact .inr (.inr ⟨link, rfl, work_of_link beside orderly made, number ▸ tail⟩)
  | frees session tail ended => exact .inr (.inl tail)
  | starts session tail => exact .inr (.inl tail)

/-- Bystanders that do not detach the chain leave it as it is. -/
theorem chain_of_attached (stepped : world.Stepped next) (attached : ¬world.Detaches) :
    next.recorder.session = world.recorder.session ∧
      next.recorder.tail = world.recorder.tail := by
  rw [stepped.recorder]
  unfold recorderAfter
  split
  · unfold Recorder.record
    split <;> exact ⟨rfl, rfl⟩
  · rename_i owner role call acts
    have mine : role ≠ .run := (beside _ _ acts).elim False.elim id
    cases call with
    | stop => exact ⟨rfl, rfl⟩
    | start => exact absurd ⟨owner, role, _, acts, mine, by rintro ⟨⟩, by rintro ⟨⟩⟩ attached
    | recover => exact absurd ⟨owner, role, _, acts, mine, by rintro ⟨⟩, by rintro ⟨⟩⟩ attached
    | startUnlessRunning =>
      cases running : world.recorder.running with
      | true => simp [operate, Recorder.startUnlessRunning, running]
      | false =>
        exact absurd ⟨owner, role, _, acts, mine, by rintro ⟨⟩, fun _ => running⟩ attached
  · rename_i acts
    exact absurd acts (not_add beside orderly)
  · exact ⟨rfl, rfl⟩

end World.Beside

/-! ## Sound chains -/

/-- A task of the chain has ended well, or stands for an abandoned chain. -/
def Sound (passed : History) (world : World) (number : Nat) : Prop :=
  (∃ value, world.outcome? number = some (.ok value)) ∨
    ∃ link ∈ passed.links, link.number = number ∧ link.work = none

section Sound

variable {task number : Nat} {passed : History} {world next : World}

theorem Sound.step (sound : Sound passed world number) (hosted : Hosted task passed world)
    (moved : world.step? = some next) : Sound (passed ++ [world]) next number := by
  rcases sound with ⟨value, ended⟩ | ⟨link, member, same, work⟩
  · have stepped := step?_stepped hosted.serial.wired moved
    exact .inl ⟨value, stepped.settled hosted.serial.wired ended⟩
  · refine .inr ⟨link, ?_, same, work⟩
    rw [History.links_append]
    exact List.mem_append_left _ member

theorem outcome?_of_between {outcome : Outcome} (hosted : Hosted task passed world)
    (between : world.Between besides next) (ended : world.outcome? number = some outcome) :
    next.outcome? number = some outcome :=
  have lasts : (hosting task True).Lasts task Act.Waits fun _ world =>
      world.outcome? number = some outcome := .outcome number outcome
  lasts.between hosted ended between ((hosting task True).between hosted between)

theorem Sound.between (sound : Sound passed world number) (hosted : Hosted task passed world)
    (between : world.Between besides next) : Sound passed next number :=
  sound.imp_left fun ⟨value, ended⟩ => ⟨value, outcome?_of_between hosted between ended⟩

/-- A sound task does not end with a fault. -/
theorem Sound.unfailed (sound : Sound passed world number) (serial : Serial passed world)
    (failure : Failure) : world.outcome? number ≠ some (.error failure) := by
  intro ended
  rcases sound with ⟨value, well⟩ | ⟨link, member, rfl, work⟩
  · rw [well] at ended
    cases ended
  · have stage := serial.staged link member _ (process?_of_outcome serial.wired ended)
    generalize passed.said link.number = said at stage
    generalize equal : Process.done (.error failure) = process at stage
    cases stage with
    | waits behind known => cases equal
    | joins behind known => cases equal
    | checks behind known => cases equal
    | opens known => cases equal
    | poisoned behind some => simp [work] at some
    | works known => simp [work] at known
    | reported known => simp [work] at known
    | stands => cases equal
    | stood => cases equal

end Sound

/-! ## Chains of earlier sessions -/

/-- If nobody else detaches the chain, the tasks that were added to the chains of earlier sessions
since a task began have ended. -/
def Bygone (task : Nat) (attached : Prop) : Assertion := fun passed world =>
  attached → ∀ link ∈ passed.links, task < link.number → link.session ≠ world.recorder.session →
    (world.outcome? link.number).isSome

section Bygone

variable {task : Nat} {attached : Prop} {passed : History} {world next : World}

theorem Bygone.step (bygone : Bygone task attached passed world) (hosted : Hosted task passed world)
    (moved : world.step? = some next)
    (same : attached → next.recorder.session = world.recorder.session) :
    Bygone task attached (passed ++ [world]) next := by
  intro still link member late apart
  rw [same still] at apart
  rw [History.links_append, List.mem_append, Option.mem_toList] at member
  rcases member with old | made
  · obtain ⟨outcome, ended⟩ := Option.isSome_iff_exists.1 (bygone still link old late apart)
    rw [(step?_stepped hosted.serial.wired moved).settled hosted.serial.wired ended]
    rfl
  · exact absurd (Serial.number_of_link made).2 apart

theorem Bygone.beside (bygone : Bygone task attached passed world) (hosted : Hosted task passed world)
    (orderly : world.Orderly attached) (beside : world.Beside) (moved : world.step? = some next) :
    Bygone task attached (passed ++ [world]) next :=
  bygone.step hosted moved fun still => (beside.chain_of_attached orderly
    (step?_stepped hosted.serial.wired moved) (orderly.attached still)).1

theorem Bygone.between (bygone : Bygone task attached passed world)
    (hosted : Hosted task passed world) (between : world.Between besides next) :
    Bygone task attached passed next := by
  intro still link member late apart
  rw [(between.mono fun comes => comes.1).recorder] at apart
  obtain ⟨outcome, ended⟩ := Option.isSome_iff_exists.1 (bygone still link member late apart)
  rw [outcome?_of_between hosted between ended]
  rfl

end Bygone

end FeatureRunner
