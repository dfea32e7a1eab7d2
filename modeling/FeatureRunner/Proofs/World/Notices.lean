import FeatureRunner.Proofs.World.Run

/-!
Who is told of the end of a task. When a task ends, a notice becomes due to each callable that asked
for it; notices go through the queue of the loop with everything else, in the order in which they
became due, and none is lost, doubled or made up. A task ends once, whether it comes to its end or is
cancelled, so its notices become due once.
-/

namespace FeatureRunner

/-- What a callable is to be told. -/
abbrev Notice := Callable × List Value

def Handle.notice? : Handle → Option Notice
  | notify callable args => some (callable, args)
  | _ => none

def Watcher.callable? : Watcher → Option Callable
  | notify callable => some callable
  | _ => none

namespace World

/-- The notices in the queue. -/
def queued (world : World) : List Notice :=
  (world.ready ++ world.soon).filterMap Handle.notice?

/-- Who is to be told of the end of a task. -/
def callables (world : World) (task : Nat) : List Callable :=
  (world.watchers task).filterMap Watcher.callable?

/-- The task that the next step ends, and how. -/
def ends? (world : World) : Option (Nat × Outcome) :=
  match world.current, world.ready with
  | some (.task number, .done outcome), _ => some (number, outcome)
  | none, .resume number :: _ =>
    match world.tasks[number]? with
    | some ⟨.scheduled _, true, _⟩ => some (number, .error .cancelled)
    | _ => none
  | _, _ => none

/-- The notices that become due with the next step, each with the task that it is about. -/
def dues (world : World) : List (Nat × Notice) :=
  match world.ends? with
  | some (number, outcome) =>
    (world.callables number).map fun callable => (number, callable, noticeArgs outcome)
  | none => []

/-- The notice that the next step takes from the queue, to call the callable. -/
def tells? (world : World) : Option Notice :=
  match world.current, world.ready with
  | none, .notify callable args :: _ => some (callable, args)
  | _, _ => none

/-- The notices that have become due. -/
def History.dues (passed : History) : List (Nat × Notice) :=
  passed.flatMap World.dues

/-- The notices that callables were called with. -/
def History.told (passed : History) : List Notice :=
  passed.filterMap World.tells?

/-- A task that is being run has not ended. -/
def Live (world : World) : Prop :=
  ∀ number, world.busy = some number → world.outcome? number = none

/-- No task ends, and nobody is told of anything or asks for it. -/
structure Tacit (world next : World) : Prop where
  length : world.tasks.length ≤ next.tasks.length
  queued : next.queued = world.queued
  callables : ∀ number, next.callables number = world.callables number
  outcomes : ∀ number, next.outcome? number = world.outcome? number
  busy : ∀ number, next.busy = some number →
    world.busy = some number ∨ world.outcome? number = none

section Tacit

variable {world mid next : World} {owner : Owner} {process : Process} {number : Nat}

namespace Tacit

theorem trans (tacit : world.Tacit mid) (further : mid.Tacit next) : world.Tacit next where
  length := Nat.le_trans tacit.length further.length
  queued := further.queued.trans tacit.queued
  callables number := (further.callables number).trans (tacit.callables number)
  outcomes number := (further.outcomes number).trans (tacit.outcomes number)
  busy number busy := (further.busy number busy).elim (tacit.busy number) fun pending =>
    .inr ((tacit.outcomes number).symm.trans pending)

/-- The tasks are as they were. -/
theorem of_tasks (tasks : next.tasks = world.tasks) (queued : next.queued = world.queued)
    (busy : ∀ number, next.busy = some number →
      world.busy = some number ∨ world.outcome? number = none) : world.Tacit next where
  length := Nat.le_of_eq (congrArg _ tasks.symm)
  queued := queued
  callables number := by simp only [World.callables, watchers, tasks]
  outcomes number := by simp only [outcome?, state?, tasks]
  busy := busy

theorem refl (world : World) : world.Tacit world :=
  .of_tasks rfl rfl fun _ busy => .inl busy

theorem live (tacit : world.Tacit next) (live : world.Live) : next.Live := fun number busy =>
  (tacit.outcomes number).trans ((tacit.busy number busy).elim (live number) id)

theorem turn : world.Tacit world.nextTurn :=
  .of_tasks rfl (by simp [World.queued, nextTurn]) fun _ busy => .inl busy

theorem enqueue {handle : Handle} (silent : handle.notice? = none) :
    world.Tacit (world.enqueue handle) := by
  refine .of_tasks rfl ?_ fun _ busy => .inl busy
  simp [World.queued, World.enqueue, ← List.append_assoc, silent]

theorem setState {state : TaskState} (pending : world.outcome? number = none)
    (unsettled : state.outcome? = none) : world.Tacit (world.setState number state) where
  length := by simp
  queued := rfl
  callables other := by simp only [World.callables, watchers_setState]
  outcomes other := by
    rw [outcome?, state?_setState]
    split
    · rename_i same
      rw [same, pending]
      cases world.state? number with
      | none => rfl
      | some _ => exact unsettled
    · rfl
  busy _ busy := .inl busy

theorem schedule (pending : world.outcome? number = none) :
    world.Tacit (world.schedule number process) :=
  (Tacit.setState pending rfl).trans (.enqueue rfl)

theorem watch {watcher : Watcher} (silent : watcher.callable? = none) :
    world.Tacit (world.watch number watcher) where
  length := by simp [World.watch]
  queued := rfl
  callables other := by
    rw [World.callables, watchers_watch]
    split
    · simp [World.callables, silent]
    · rfl
  outcomes other := by simp only [outcome?, state?_watch]
  busy _ busy := .inl busy

theorem spawn (process : Process) : world.Tacit (world.spawn process).1 where
  length := by simp [World.spawn]
  queued := by simp [World.queued, World.spawn, ← List.append_assoc, Handle.notice?]
  callables number := by simp only [World.callables, watchers_spawn]
  outcomes number := outcome?_spawn process number
  busy _ busy := .inl busy

theorem of_rests (rests : world.Rests next) : world.Tacit next :=
  .of_tasks rests.tasks (by simp only [World.queued, rests.ready, rests.soon]) fun number busy =>
    .inl (by simpa only [World.busy, rests.current] using busy)

theorem respond (request : Request) : world.Tacit (world.respond request).2 := by
  by_cases steady : ∀ role, request ≠ .recorder role .recover
  · exact .of_rests (respond_rests request steady)
  · obtain ⟨role, rfl⟩ : ∃ role, request = .recorder role .recover := by simpa using steady
    change world.Tacit world.recover.2
    rcases recover_cases world with ⟨rests, _⟩ | ⟨previous, _, _, _, result⟩
    · exact .of_rests rests
    · rw [result]
      exact (Tacit.spawn _).trans (.of_tasks rfl rfl fun _ busy => .inl busy)

theorem addTask (name : String) (body : Process) : world.Tacit (world.addTask name body).2 := by
  rcases addTask_cases world name body with ⟨_, result⟩ | ⟨_, result⟩
  · rw [result]
    exact .refl world
  · rw [result]
    exact (Tacit.spawn _).trans (.of_tasks rfl rfl fun _ busy => .inl busy)

theorem proceed (mine : ∀ number, owner = .task number → world.outcome? number = none) :
    world.Tacit (world.proceed owner process) := by
  refine .of_tasks rfl rfl fun number busy => .inr (mine number ?_)
  cases owner with
  | task other => exact congrArg Owner.task (Option.some.inj busy)
  | caller => cases busy

theorem suspend {leave : Nat → World}
    (leaves : ∀ number, owner = .task number → world.Tacit (leave number)) :
    world.Tacit (world.suspend owner leave) := by
  cases owner with
  | task number => exact leaves number rfl
  | caller => exact .of_tasks rfl rfl fun _ busy => .inl busy

/-- A process does what it does, and does not end. -/
theorem runNode
    (mine : ∀ number, owner = .task number → world.outcome? number = none)
    (goes : ∀ number outcome, owner = .task number → process ≠ .done outcome) :
    world.Tacit (world.runNode owner process) := by
  have proceeds {world : World} {process : Process}
      (mine : ∀ number, owner = .task number → world.outcome? number = none) :
      world.Tacit (world.proceed owner process) := .proceed mine
  have waits {state : TaskState} (unsettled : state.outcome? = none) (number : Nat)
      (same : owner = .task number) : world.Tacit (world.setState number state) :=
    .setState (mine number same) unsettled
  cases process with
  | done outcome =>
    cases owner with
    | task number => exact absurd rfl (goes number outcome rfl)
    | caller => exact .of_tasks rfl rfl fun _ busy => .inl busy
  | ask request next =>
    have asked : world.Tacit (world.respond request).2 := .respond request
    exact asked.trans (proceeds fun number same => (asked.outcomes number).trans (mine number same))
  | call => exact proceeds mine
  | leave => exact proceeds mine
  | add role name body next =>
    have added : world.Tacit (world.addTask name body).2 := .addTask name body
    exact added.trans (proceeds fun number same => (added.outcomes number).trans (mine number same))
  | await task next =>
    simp only [World.runNode]
    split
    · exact proceeds mine
    · split
      · exact proceeds mine
      · exact .suspend fun number same => (waits rfl number same).trans (.watch rfl)
  | join task rest =>
    simp only [World.runNode]
    split
    · exact proceeds mine
    · refine .suspend fun number same => ?_
      split
      · exact (waits rfl number same).trans (.enqueue rfl)
      · exact (waits rfl number same).trans (.watch rfl)
  | wait gate rest =>
    simp only [World.runNode]
    split
    · exact proceeds mine
    · exact .suspend (waits rfl)
  | yield rest => exact .suspend fun number same => .schedule (mine number same)

theorem release (gate : String) (number : Nat) : world.Tacit (release gate world number) := by
  unfold World.release
  split
  · rename_i waited rest waiting
    split
    · exact .schedule (by simp [outcome?, waiting, TaskState.outcome?])
    · exact .refl world
  · exact .refl world

theorem openGate (gate : String) : world.Tacit (world.openGate gate) := by
  have releases (numbers : List Nat) (world : World) :
      world.Tacit (numbers.foldl (World.release gate) world) := by
    induction numbers generalizing world with
    | nil => exact .refl world
    | cons number rest ih => exact (Tacit.release gate number).trans (ih _)
  have opened : world.Tacit { world with openGates := gate :: world.openGates } :=
    .of_tasks rfl rfl fun _ busy => .inl busy
  exact opened.trans (releases _ _)

theorem mark (number : Nat) : world.Tacit { world with
    tasks := world.tasks.modify number ({ · with cancelRequested := true }) } where
  length := by simp
  queued := rfl
  callables other := by
    simp only [World.callables, watchers, List.getElem?_modify]
    cases world.tasks[other]? with
    | none => rfl
    | some task => simp only [Option.map_some]; split <;> rfl
  outcomes other := by
    simp only [outcome?, state?, List.getElem?_modify]
    cases world.tasks[other]? with
    | none => rfl
    | some task => simp only [Option.map_some]; split <;> rfl
  busy _ busy := .inl busy

/-- Whoever asks for a cancellation only marks a task, and wakes it if it waits. -/
theorem cancel (number : Nat) : world.Tacit (world.cancel number) := by
  unfold World.cancel
  induction world.tasks.length + 1 generalizing number with
  | zero => exact .refl world
  | succ depth ih =>
    unfold cancelWithin
    split
    · exact .refl world
    · rename_i found known
      have wakes {process : Process} (pending : found.state.outcome? = none) :
          world.Tacit (World.schedule { world with
            tasks := world.tasks.modify number ({ · with cancelRequested := true }) }
              number process) := by
        have marked : world.Tacit { world with
            tasks := world.tasks.modify number ({ · with cancelRequested := true }) } := .mark number
        refine marked.trans (.schedule ((marked.outcomes number).trans ?_))
        simp [outcome?, state?, known, pending]
      dsimp only
      split
      · exact .refl world
      · exact ih _
      · rename_i waits
        exact wakes (by rw [waits]; rfl)
      · rename_i waits
        exact wakes (by rw [waits]; rfl)
      · exact .mark number

end Tacit

theorem live_of_idle (idle : world.current = none) : world.Live := fun _ busy => by
  simp [World.busy, idle] at busy

/-! ## The end of a task -/

theorem queued_alert (outcome : Outcome) (watcher : Watcher) :
    (alert outcome world watcher).queued =
      world.queued ++ watcher.callable?.toList.map (·, noticeArgs outcome) := by
  cases watcher with
  | notify callable =>
    simp [World.queued, alert, World.enqueue, ← List.append_assoc, Handle.notice?, Watcher.callable?]
  | fulfil task =>
    exact (Tacit.enqueue rfl).queued.trans (List.append_nil _).symm
  | resume task =>
    refine Eq.trans ?_ (List.append_nil _).symm
    simp only [alert]
    split
    · rename_i waiting
      exact (Tacit.schedule (by simp [outcome?, waiting, TaskState.outcome?])).queued
    · rfl

/-- A task that ends has its notices put at the end of the queue. -/
theorem queued_finish (outcome : Outcome) : (world.finish number outcome).queued =
    world.queued ++ (world.callables number).map (·, noticeArgs outcome) := by
  have alerts (watchers : List Watcher) (world : World) : (watchers.foldl (alert outcome) world).queued =
      world.queued ++ (watchers.filterMap Watcher.callable?).map (·, noticeArgs outcome) := by
    induction watchers generalizing world with
    | nil => simp
    | cons watcher rest ih =>
      rw [List.foldl_cons, ih, queued_alert]
      cases found : watcher.callable? <;> simp [found]
  exact alerts _ _

theorem callables_finish (outcome : Outcome) (other : Nat) : (world.finish number outcome).callables other =
    if other = number then [] else world.callables other := by
  rw [World.callables, watchers_finish]
  split <;> rfl

theorem busy_finish (outcome : Outcome) : (world.finish number outcome).busy = world.busy := by
  have framed : world.Framed (world.finish number outcome) := framed_finish number outcome
  rw [framed]
  rfl

end Tacit

/-! ## Steps -/

/-- What a step does to notices: nothing, or it ends a task, or it calls whom a notice is for. -/
inductive Heralds (world : World) : World → Prop
  | tacit {next : World} (ends : world.ends? = none) (tells : world.tells? = none)
      (tacit : world.Tacit next) : Heralds world next
  | ends {number : Nat} {outcome : Outcome} {mid : World} (ends : world.ends? = some (number, outcome))
      (tells : world.tells? = none) (tacit : world.Tacit mid) (idle : mid.current = none) :
      Heralds world (mid.finish number outcome)
  | tells {callable : Callable} {args : List Value} {mid : World}
      (ends : world.ends? = none) (tells : world.tells? = some (callable, args))
      (queued : world.queued = (callable, args) :: mid.queued) (tasks : mid.tasks = world.tasks) :
      Heralds world (mid.proceed .caller (.call .notice callable args .done))

section Steps

variable {world next : World} {number : Nat}

theorem step?_heralds (live : world.Live) (moved : world.step? = some next) : world.Heralds next := by
  unfold step? at moved
  split at moved
  · rename_i owner process running
    cases moved
    have tells : world.tells? = none := by simp [tells?, running]
    have idle : world.Tacit { world with current := none } :=
      .of_tasks rfl rfl fun _ busy => by cases busy
    by_cases goes : ∀ number outcome, owner = .task number → process ≠ .done outcome
    · have ends : world.ends? = none := by
        cases owner with
        | caller => simp [ends?, running]
        | task number =>
          cases process with
          | done outcome => exact absurd rfl (goes number outcome rfl)
          | _ => simp [ends?, running]
      refine .tacit ends tells (idle.trans (.runNode (fun number same => ?_) goes))
      exact live number (by simp [World.busy, running, same])
    · simp only [not_forall, not_not] at goes
      obtain ⟨number, outcome, rfl, rfl⟩ := goes
      exact .ends (by simp [ends?, running]) tells idle rfl
  · rename_i handle rest idle queued
    cases moved
    have taken (silent : handle.notice? = none) : world.Tacit { world with ready := rest } := by
      refine .of_tasks rfl ?_ fun _ busy => .inl busy
      simp [World.queued, queued, silent]
    cases handle with
    | notify callable args =>
      refine .tells (by simp [ends?, idle, queued]) (by simp [tells?, idle, queued]) ?_ rfl
      simp [World.queued, queued, Handle.notice?]
    | fulfil number =>
      refine .tacit (by simp [ends?, idle, queued]) (by simp [tells?, idle, queued]) ?_
      simp only [World.handle]
      split
      · rename_i waiting
        refine (taken rfl).trans (.schedule ?_)
        simp [outcome?, waiting, TaskState.outcome?]
      · exact taken rfl
    | resume number =>
      have tells : world.tells? = none := by simp [tells?, idle, queued]
      simp only [World.handle, World.resume]
      split
      · rename_i process cancelled watchers found
        have found : world.tasks[number]? = some ⟨.scheduled process, cancelled, watchers⟩ := found
        split
        · rename_i cancels
          subst cancels
          exact .ends (by simp [ends?, idle, queued, found]) tells (taken rfl) idle
        · rename_i goes
          refine .tacit (by simp [ends?, idle, queued, found, goes]) tells ((taken rfl).trans (.proceed ?_))
          rintro _ ⟨⟩
          simp [outcome?, state?, found, TaskState.outcome?]
      · rename_i unscheduled
        refine .tacit ?_ tells (taken rfl)
        unfold ends?
        simp only [idle, queued]
        split
        · rename_i process watchers found
          exact absurd found (unscheduled process true watchers)
        · rfl
  · cases moved

theorem pending_of_ends (live : world.Live) {outcome : Outcome}
    (ends : world.ends? = some (number, outcome)) : world.outcome? number = none := by
  unfold ends? at ends
  split at ends
  · rename_i running
    cases ends
    exact live number (by simp [World.busy, running])
  · split at ends
    · rename_i found
      cases ends
      simp [outcome?, state?, found, TaskState.outcome?]
    · cases ends
  · cases ends

theorem ends_of_due {due : Nat × Notice} (member : due ∈ world.dues) :
    ∃ outcome, world.ends? = some (due.1, outcome) := by
  unfold World.dues at member
  split at member
  · rename_i number outcome ends
    obtain ⟨callable, _, rfl⟩ := List.mem_map.1 member
    exact ⟨outcome, ends⟩
  · cases member

theorem dues_of_ends {outcome : Outcome} (ends : world.ends? = some (number, outcome)) :
    world.dues = (world.callables number).map fun callable => (number, callable, noticeArgs outcome) := by
  simp [World.dues, ends]

/-- Notices are taken from the front of the queue and put at its end. -/
theorem Heralds.queued (heralds : world.Heralds next) :
    world.tells?.toList ++ next.queued = world.queued ++ world.dues.map Prod.snd := by
  cases heralds with
  | tacit ends tells tacit => simp [tells, World.dues, ends, tacit.queued]
  | ends ends tells tacit _ =>
    rw [tells, dues_of_ends ends, queued_finish, tacit.queued, tacit.callables]
    simp [Function.comp_def]
  | @tells callable args mid ends tells queued _ =>
    rw [tells, queued, World.dues, ends, List.map_nil, List.append_nil]
    rfl

theorem Heralds.live (heralds : world.Heralds next) (live : world.Live) : next.Live := by
  cases heralds with
  | tacit _ _ tacit => exact tacit.live live
  | @ends number outcome mid _ _ _ idle =>
    have same : (mid.finish number outcome).busy = mid.busy := busy_finish outcome
    intro other busy
    rw [same] at busy
    simp [World.busy, idle] at busy
  | tells => exact fun _ busy => by cases busy

/-- Whoever is told is called. -/
theorem call_of_tells {callable : Callable} {args : List Value}
    (tells : world.tells? = some (callable, args)) : ∃ next, world.step? = some next ∧
      next.current = some (.caller, .call .notice callable args .done) := by
  unfold tells? at tells
  split at tells
  · rename_i rest idle queued
    cases tells
    exact ⟨_, by simp only [step?, idle, queued]; rfl, rfl⟩
  · cases tells

end Steps

/-! ## Runs -/

/-- What may come from outside while some are to be told of the end of a task: cancellations, and all
else but that others are to be told of it as well. -/
inductive Visits (number : Nat) (world : World) : World → Prop
  | comes {next : World} (comes : Intervention (fun _ => True) world next)
      (same : next.callables number = world.callables number) : Visits number world next
  | cancels (task : Nat) : Visits number world (world.cancel task)

/-- A task has not ended, and some callables are to be told when it has. -/
structure Awaited (number : Nat) (callables : List Callable) (world : World) : Prop where
  inside : number < world.tasks.length
  pending : world.outcome? number = none
  callables : world.callables number = callables

/-- The notices about a task become due when it ends, with its outcome, and only then. -/
def Announced (number : Nat) (callables : List Callable) (passed : History) (world : World) : Prop :=
  match world.outcome? number with
  | none => world.Awaited number callables ∧ passed.dues.filter (·.1 = number) = []
  | some outcome => passed.dues.filter (·.1 = number) =
      callables.map fun callable => (number, callable, noticeArgs outcome)

/-- Nobody is to be told of anything. -/
structure Unwatched (world : World) : Prop where
  queued : world.queued = []
  callables : ∀ number, world.callables number = []

theorem Unwatched.of_tacit {world next : World} (unwatched : world.Unwatched) (tacit : world.Tacit next) : next.Unwatched where
  queued := tacit.queued.trans unwatched.queued
  callables number := (tacit.callables number).trans (unwatched.callables number)

theorem Unwatched.cancelAll {world : World} (unwatched : world.Unwatched) : world.cancelAll.Unwatched where
  queued := by
    have none := unwatched.queued
    rw [World.queued, List.filterMap_append] at none
    simpa [World.queued, World.cancelAll] using (List.append_eq_nil_iff.1 none).1
  callables number := by
    have none := unwatched.callables number
    simp only [World.callables, watchers, World.cancelAll, List.getElem?_map] at none ⊢
    cases found : world.tasks[number]? with
    | none => rfl
    | some task =>
      rw [found] at none
      simp only [Option.map_some, Option.getD_some] at none ⊢
      split
      · exact none
      · rfl

theorem History.dues_append (passed : History) (world : World) :
    History.dues (passed ++ [world]) = passed.dues ++ world.dues := by
  simp [History.dues]

theorem History.told_append (passed : History) (world : World) :
    History.told (passed ++ [world]) = passed.told ++ world.tells?.toList := by
  simp only [History.told, List.filterMap_append]
  cases told : world.tells? <;> simp [told]

section Runs

variable {start world next : World} {passed : History} {number : Nat} {callables : List Callable}

/-- What is between two steps leaves the notices about a task alone. -/
structure Spares (number : Nat) (world next : World) : Prop where
  length : world.tasks.length ≤ next.tasks.length
  queued : next.queued = world.queued
  callables : next.callables number = world.callables number
  outcome : next.outcome? number = world.outcome? number
  live : world.Live → next.Live

theorem Tacit.spares (tacit : world.Tacit next) : Spares number world next :=
  ⟨tacit.length, tacit.queued, tacit.callables number, tacit.outcomes number, tacit.live⟩

theorem Spares.of_between (between : world.Between (Visits number) next) : Spares number world next := by
  cases between with
  | turn => exact Tacit.turn.spares
  | gate gate _ => exact (Tacit.openGate gate).spares
  | outside visits =>
    cases visits with
    | cancels task => exact (Tacit.cancel task).spares
    | comes comes same =>
      cases comes with
      | enters _ idle =>
        exact ⟨Nat.le_refl _, rfl, same, rfl, fun _ _ busy => by cases busy⟩
      | spawns => exact (Tacit.spawn _).spares
      | watches task callable =>
        have outcomes (other : Nat) :
            (world.watch task (.notify callable)).outcome? other = world.outcome? other := by
          simp only [outcome?, state?_watch]
        exact ⟨by simp [World.watch], rfl, same, outcomes number,
          fun live other busy => (outcomes other).trans (live other busy)⟩
      | alters apart =>
        have altered : world.Tacit next :=
          .of_tasks (by rw [apart]) (by rw [apart]; rfl) fun _ busy => .inl (by rw [apart] at busy; exact busy)
        exact altered.spares

/-- Whom callables are called with is what was in the queue and what has become due since, in order and
up to what is still in the queue. -/
theorem told_of_run (run : Run (Visits number) start passed world) (live : start.Live) :
    world.Live ∧ passed.told ++ world.queued = start.queued ++ passed.dues.map Prod.snd := by
  induction run with
  | refl => exact ⟨live, by simp [History.told, History.dues]⟩
  | @step passed world next run moved ih =>
    obtain ⟨live, told⟩ := ih
    have heralds := step?_heralds live moved
    refine ⟨heralds.live live, ?_⟩
    rw [History.told_append, History.dues_append, List.map_append, List.append_assoc,
      heralds.queued, ← List.append_assoc, told, List.append_assoc]
  | between run between ih =>
    obtain ⟨live, told⟩ := ih
    have spares := Spares.of_between between
    exact ⟨spares.live live, by rw [spares.queued, told]⟩

/-- A step that ends another task, or none, does not concern a task. -/
theorem Announced.past (announced : Announced number callables passed world)
    (apart : ∀ outcome, world.ends? ≠ some (number, outcome))
    (length : world.tasks.length ≤ next.tasks.length)
    (kept : next.callables number = world.callables number)
    (outcome : next.outcome? number = world.outcome? number) :
    Announced number callables (passed ++ [world]) next := by
  have none : world.dues.filter (·.1 = number) = [] := by
    refine List.filter_eq_nil_iff.2 fun due member => ?_
    obtain ⟨ending, ends⟩ := ends_of_due member
    simp only [decide_eq_true_eq]
    rintro rfl
    exact apart ending ends
  unfold Announced at announced ⊢
  rw [outcome, History.dues_append, List.filter_append, none, List.append_nil]
  split
  · rename_i pending
    rw [pending] at announced
    obtain ⟨awaited, before⟩ := announced
    exact ⟨⟨Nat.lt_of_lt_of_le awaited.inside length, outcome.trans pending,
      kept.trans awaited.callables⟩, before⟩
  · rename_i ended
    rwa [ended] at announced

theorem Announced.step (announced : Announced number callables passed world) (live : world.Live)
    (moved : world.step? = some next) : Announced number callables (passed ++ [world]) next := by
  cases step?_heralds live moved with
  | tacit ends _ tacit =>
    exact announced.past (by simp [ends]) tacit.length (tacit.callables number) (tacit.outcomes number)
  | tells ends _ _ tasks =>
    refine announced.past (by simp [ends]) (Nat.le_of_eq (congrArg _ tasks.symm)) ?_ ?_
    · simp only [World.callables, watchers, proceed, tasks]
    · simp only [outcome?, state?, proceed, tasks]
  | @ends other outcome mid ends _ tacit idle =>
    by_cases mine : other = number
    · subst mine
      have pending := pending_of_ends live ends
      unfold Announced at announced
      rw [pending] at announced
      obtain ⟨awaited, none⟩ := announced
      have inside := Nat.lt_of_lt_of_le awaited.inside tacit.length
      have ended : (mid.finish other outcome).outcome? other = some outcome :=
        outcome?_finish_self other outcome inside
      unfold Announced
      rw [ended, History.dues_append, List.filter_append, none, dues_of_ends ends, awaited.callables]
      simp
    · refine announced.past (fun ending same => ?_) ?_ ?_ ?_
      · exact mine (congrArg Prod.fst (Option.some.inj (ends.symm.trans same)))
      · rw [length_finish]
        exact tacit.length
      · rw [callables_finish, if_neg (Ne.symm mine), tacit.callables]
      · rw [outcome?_finish _ _ (Ne.symm mine), tacit.outcomes]

/-- The notices about a task become due once, when it ends. -/
theorem announced_of_run (run : Run (Visits number) start passed world) (live : start.Live)
    (awaited : start.Awaited number callables) : Announced number callables passed world := by
  induction run with
  | refl =>
    unfold Announced
    rw [awaited.pending]
    exact ⟨awaited, rfl⟩
  | step run moved ih => exact ih.step (told_of_run run live).1 moved
  | @between passed world next run between ih =>
    have spares := Spares.of_between between
    unfold Announced at ih ⊢
    rw [spares.outcome]
    split
    · rename_i pending
      rw [pending] at ih
      obtain ⟨awaited, none⟩ := ih
      exact ⟨⟨Nat.lt_of_lt_of_le awaited.inside spares.length, spares.outcome.trans pending,
        spares.callables.trans awaited.callables⟩, none⟩
    · rename_i ended
      rwa [ended] at ih

/-- Where nobody is to be told of anything, nobody is told. -/
theorem Unwatched.of_run (unwatched : start.Unwatched) (live : start.Live)
    (run : Run (fun _ _ => False) start passed world) : world.Unwatched ∧ passed.told = [] := by
  suffices world.Live ∧ world.Unwatched ∧ passed.told = [] from this.2
  induction run with
  | refl => exact ⟨live, unwatched, rfl⟩
  | @step passed world next run moved ih =>
    obtain ⟨live, unwatched, untold⟩ := ih
    have heralds := step?_heralds live moved
    refine ⟨heralds.live live, ?_⟩
    rw [History.told_append, untold, List.nil_append]
    cases heralds with
    | tacit _ tells tacit =>
      rw [tells]
      exact ⟨unwatched.of_tacit tacit, rfl⟩
    | ends _ tells tacit _ =>
      rw [tells]
      refine ⟨⟨?_, fun number => ?_⟩, rfl⟩
      · rw [queued_finish, tacit.queued, tacit.callables, unwatched.queued, unwatched.callables]
        rfl
      · rw [callables_finish, tacit.callables, unwatched.callables, ite_self]
    | tells _ _ queued _ =>
      rw [unwatched.queued] at queued
      cases queued
  | @between passed world next run between ih =>
    obtain ⟨live, unwatched, untold⟩ := ih
    have tacit : world.Tacit next := by
      cases between with
      | turn => exact .turn
      | gate gate _ => exact .openGate gate
      | outside comes => exact comes.elim
    exact ⟨tacit.live live, unwatched.of_tacit tacit, untold⟩

end Runs

end World

end FeatureRunner
