import FeatureRunner.Proofs.Script
import FeatureRunner.World.Loop
import Mathlib.Data.List.Nodup

/-!
The wiring between the tasks of a world and its queue. A task that joins another has its one place
either among the watchers of the other or, once the other has ended, in the queue; one that awaits
another is among its watchers; and one that is scheduled is running or in the queue. So a task goes
on only when what it waits for has come, and it is never forgotten.
-/

namespace FeatureRunner

/-- The task that a handle lets go on after a join. -/
def Handle.fulfilled? : Handle → Option Nat
  | fulfil task => some task
  | _ => none

def Handle.resumed? : Handle → Option Nat
  | resume task => some task
  | _ => none

def Watcher.joiner? : Watcher → Option Nat
  | fulfil task => some task
  | _ => none

def Watcher.awaiter? : Watcher → Option Nat
  | resume task => some task
  | _ => none

/-- The process that a task goes on with from where it stands. -/
def TaskState.rest : TaskState → Process
  | scheduled rest => rest
  | awaiting task next => .await task next
  | joining task rest => .join task rest
  | waiting gate rest => .wait gate rest
  | done outcome => .done outcome

/-- What becomes of a state when the task ends that it awaits. -/
def TaskState.awake (outcome : Outcome) : TaskState → TaskState
  | awaiting _ next => .scheduled (next outcome)
  | state => state

namespace World

def fulfilments (world : World) : List Nat :=
  (world.ready ++ world.soon).filterMap Handle.fulfilled?

def resumptions (world : World) : List Nat :=
  (world.ready ++ world.soon).filterMap Handle.resumed?

/-- The tasks that join a task and are not yet in the queue. -/
def joiners (world : World) (task : Nat) : List Nat :=
  (world.watchers task).filterMap Watcher.joiner?

def awaiters (world : World) (task : Nat) : List Nat :=
  (world.watchers task).filterMap Watcher.awaiter?

/-- What a task goes on with when its turn comes. -/
def standing (world : World) (task : Nat) : Option Process :=
  (world.state? task).map TaskState.rest

/-- No wait for a task is noted anywhere. -/
structure Unattached (world : World) (number : Nat) : Prop where
  fulfilments : number ∉ world.fulfilments
  joiners : ∀ task, number ∉ world.joiners task
  awaiters : ∀ task, number ∉ world.awaiters task

/-- Every task is wired but the one that is free: it is being run, or about to be put somewhere. -/
structure Wired (world : World) (free : Option Nat) : Prop where
  uncancelled : ∀ task ∈ world.tasks, task.cancelRequested = false
  released : ∀ number, free = some number → number < world.tasks.length ∧
    world.outcome? number = none ∧ world.Unattached number
  fulfilled : ∀ number ∈ world.fulfilments, ∃ task rest,
    world.state? number = some (.joining task rest) ∧ (world.outcome? task).isSome
  fulfilledOnce : world.fulfilments.Nodup
  joined : ∀ task, ∀ number ∈ world.joiners task,
    (∃ rest, world.state? number = some (.joining task rest)) ∧ world.outcome? task = none
  joinedOnce : ∀ task, (world.joiners task).Nodup
  awaited : ∀ task, ∀ number ∈ world.awaiters task,
    (∃ next, world.state? number = some (.awaiting task next)) ∧ world.outcome? task = none
  scheduled : ∀ number rest, world.state? number = some (.scheduled rest) →
    free = some number ∨ number ∈ world.resumptions
  joins : ∀ number task rest, world.state? number = some (.joining task rest) →
    free = some number ∨ number ∈ world.fulfilments ∨ number ∈ world.joiners task
  awaits : ∀ number task next, world.state? number = some (.awaiting task next) →
    free = some number ∨ number ∈ world.awaiters task

/-! ## What the operations do to tasks and queue -/

variable {world : World} {number : Nat}

theorem state?_of_length_le (beyond : world.tasks.length ≤ number) :
    world.state? number = none := by
  simp [state?, beyond]

theorem state?_lt {state : TaskState} (known : world.state? number = some state) :
    number < world.tasks.length := by
  by_contra beyond
  simp [state?_of_length_le (Nat.le_of_not_lt beyond)] at known

theorem state?_isSome : (world.state? number).isSome ↔ number < world.tasks.length := by
  simp [state?]

theorem outcome?_eq_some {outcome : Outcome} :
    world.outcome? number = some outcome ↔ world.state? number = some (.done outcome) := by
  unfold outcome?
  cases found : world.state? number with
  | none => simp
  | some state => cases state <;> simp [TaskState.outcome?]

theorem outcome?_lt {outcome : Outcome} (ended : world.outcome? number = some outcome) :
    number < world.tasks.length :=
  state?_lt (outcome?_eq_some.1 ended)

section Operations

variable (world) (other : Nat) (state : TaskState) (process : Process)

@[simp] theorem length_setState : (world.setState other state).tasks.length =
    world.tasks.length := by
  simp [setState]

theorem state?_setState : (world.setState other state).state? number =
    if number = other then (world.state? number).map fun _ => state else world.state? number := by
  by_cases same : number = other
  · subst same
    simp [setState, state?, Option.map_map, Function.comp_def]
  · simp [setState, state?, same, Ne.symm same]

@[simp] theorem watchers_setState :
    (world.setState other state).watchers number = world.watchers number := by
  by_cases same : other = number
  · subst same
    simp [setState, watchers, Option.map_map, Function.comp_def]
  · simp [setState, watchers, same]

theorem state?_put (inside : other < world.tasks.length) :
    (world.setState other state).state? number =
      if number = other then some state else world.state? number := by
  rw [state?_setState]
  split
  · rename_i same
    obtain ⟨found, present⟩ := Option.isSome_iff_exists.1 (state?_isSome.2 inside)
    rw [same, present]
    rfl
  · rfl

theorem uncancelled_setState (uncancelled : ∀ task ∈ world.tasks, task.cancelRequested = false) :
    ∀ task ∈ (world.setState other state).tasks, task.cancelRequested = false := by
  intro task member
  obtain ⟨place, inside, rfl⟩ := List.getElem_of_mem member
  simp only [setState, List.length_modify] at inside
  have known := uncancelled _ (List.getElem_mem inside)
  simp only [setState, List.getElem_modify]
  split <;> exact known

theorem fulfilments_enqueue (handle : Handle) :
    (world.enqueue handle).fulfilments = world.fulfilments ++ handle.fulfilled?.toList := by
  cases handle <;> simp [fulfilments, enqueue, List.filterMap_append, Handle.fulfilled?]

theorem resumptions_enqueue (handle : Handle) :
    (world.enqueue handle).resumptions = world.resumptions ++ handle.resumed?.toList := by
  cases handle <;> simp [resumptions, enqueue, List.filterMap_append, Handle.resumed?]

theorem state?_watch (watcher : Watcher) :
    (world.watch other watcher).state? number = world.state? number := by
  by_cases same : other = number
  · subst same
    simp [watch, state?, Option.map_map, Function.comp_def]
  · simp [watch, state?, same]

theorem watchers_watch (watcher : Watcher) : (world.watch other watcher).watchers number =
    if number = other ∧ other < world.tasks.length then world.watchers number ++ [watcher]
    else world.watchers number := by
  by_cases same : number = other
  · subst same
    by_cases inside : number < world.tasks.length
    · simp [watch, watchers, inside]
    · simp [watch, watchers, inside]
  · simp [watch, watchers, same, Ne.symm same]

theorem joiners_watch (watcher : Watcher) : (world.watch other watcher).joiners number =
    if number = other ∧ other < world.tasks.length then
      world.joiners number ++ watcher.joiner?.toList
    else world.joiners number := by
  rw [joiners, watchers_watch]
  split
  · rw [List.filterMap_append, joiners]
    cases kind : watcher.joiner? <;> simp [kind]
  · rfl

theorem awaiters_watch (watcher : Watcher) : (world.watch other watcher).awaiters number =
    if number = other ∧ other < world.tasks.length then
      world.awaiters number ++ watcher.awaiter?.toList
    else world.awaiters number := by
  rw [awaiters, watchers_watch]
  split
  · rw [List.filterMap_append, awaiters]
    cases kind : watcher.awaiter? <;> simp [kind]
  · rfl

theorem uncancelled_watch (watcher : Watcher)
    (uncancelled : ∀ task ∈ world.tasks, task.cancelRequested = false) :
    ∀ task ∈ (world.watch other watcher).tasks, task.cancelRequested = false := by
  intro task member
  obtain ⟨place, inside, rfl⟩ := List.getElem_of_mem member
  simp only [watch, List.length_modify] at inside
  have known := uncancelled _ (List.getElem_mem inside)
  simp only [watch, List.getElem_modify]
  split <;> exact known

@[simp] theorem length_close (outcome : Outcome) :
    (world.close other outcome).tasks.length = world.tasks.length := by
  simp [close]

theorem state?_close (outcome : Outcome) : (world.close other outcome).state? number =
    if number = other then (world.state? number).map fun _ => .done outcome
    else world.state? number := by
  by_cases same : number = other
  · subst same
    simp [close, state?, Option.map_map, Function.comp_def]
  · simp [close, state?, same, Ne.symm same]

theorem watchers_close (outcome : Outcome) : (world.close other outcome).watchers number =
    if number = other then [] else world.watchers number := by
  by_cases same : number = other
  · subst same
    cases found : world.tasks[number]? <;> simp [close, watchers, found]
  · simp [close, watchers, same, Ne.symm same]

theorem state?_spawn : (world.spawn process).1.state? number =
    if number = world.tasks.length then some (.scheduled process) else world.state? number := by
  unfold state? spawn
  by_cases same : number = world.tasks.length
  · simp [same]
  · simp only [same, if_false]
    rcases Nat.lt_or_gt_of_ne same with inside | beyond
    · simp [List.getElem?_append_left inside]
    · rw [List.getElem?_eq_none (by simp; omega), List.getElem?_eq_none (Nat.le_of_lt beyond)]

theorem watchers_spawn : (world.spawn process).1.watchers number = world.watchers number := by
  unfold watchers spawn
  rcases Nat.lt_trichotomy number world.tasks.length with inside | same | beyond
  · simp [List.getElem?_append_left inside]
  · simp [same]
  · rw [List.getElem?_eq_none (by simp; omega), List.getElem?_eq_none (Nat.le_of_lt beyond)]

end Operations

theorem joiners_eq_nil (beyond : world.tasks.length ≤ number) : world.joiners number = [] := by
  simp [joiners, watchers, beyond]

theorem awaiters_eq_nil (beyond : world.tasks.length ≤ number) : world.awaiters number = [] := by
  simp [awaiters, watchers, beyond]

/-- Two worlds differ in their tasks and in the next turn of the queue at most. -/
def Framed (world next : World) : Prop :=
  next = { world with tasks := next.tasks, soon := next.soon }

theorem Framed.trans {first second third : World} (framed : first.Framed second)
    (framed' : second.Framed third) : first.Framed third := by
  rw [Framed] at *
  rw [framed', framed]

/-! ## The end of a task -/

section Alerts

variable (outcome : Outcome)

theorem state?_alert (watcher : Watcher) : (alert outcome world watcher).state? number =
    if watcher.awaiter? = some number then (world.state? number).map (TaskState.awake outcome)
    else world.state? number := by
  cases watcher with
  | fulfil task => rfl
  | notify callable => rfl
  | resume task =>
    simp only [alert, Watcher.awaiter?, Option.some.injEq]
    split
    · rename_i waited next known
      change (world.setState task (.scheduled (next outcome))).state? number = _
      rw [state?_setState]
      by_cases same : number = task
      · subst same
        simp [known, TaskState.awake]
      · simp [same, Ne.symm same]
    · rename_i other
      by_cases same : task = number
      · subst same
        cases known : world.state? task with
        | none => simp
        | some state => cases state <;> simp_all [TaskState.awake]
      · simp [same]

theorem watchers_alert (watcher : Watcher) :
    (alert outcome world watcher).watchers number = world.watchers number := by
  cases watcher with
  | fulfil task => rfl
  | notify callable => rfl
  | resume task =>
    simp only [alert]
    split
    · exact watchers_setState _ _ _
    · rfl

theorem framed_alert (watcher : Watcher) : world.Framed (alert outcome world watcher) := by
  cases watcher with
  | fulfil task => rfl
  | notify callable => rfl
  | resume task => simp only [alert]; split <;> rfl

theorem length_alert (watcher : Watcher) :
    (alert outcome world watcher).tasks.length = world.tasks.length := by
  cases watcher with
  | fulfil task => rfl
  | notify callable => rfl
  | resume task =>
    simp only [alert]
    split
    · exact length_setState _ _ _
    · rfl

theorem uncancelled_alert (watcher : Watcher)
    (uncancelled : ∀ task ∈ world.tasks, task.cancelRequested = false) :
    ∀ task ∈ (alert outcome world watcher).tasks, task.cancelRequested = false := by
  cases watcher with
  | fulfil task => exact uncancelled
  | notify callable => exact uncancelled
  | resume task =>
    simp only [alert]
    split
    · exact uncancelled_setState _ _ _ uncancelled
    · exact uncancelled

theorem fulfilments_alert (watcher : Watcher) : (alert outcome world watcher).fulfilments =
    world.fulfilments ++ watcher.joiner?.toList := by
  cases watcher with
  | fulfil task => exact fulfilments_enqueue _ _
  | notify callable => exact fulfilments_enqueue _ _
  | resume task =>
    simp only [alert]
    split
    · exact fulfilments_enqueue _ (.resume task)
    · simp [Watcher.joiner?]

theorem resumptions_alert (watcher : Watcher) :
    world.resumptions ⊆ (alert outcome world watcher).resumptions := by
  cases watcher with
  | fulfil task => simp [alert, resumptions_enqueue]
  | notify callable => simp [alert, resumptions_enqueue]
  | resume task =>
    simp only [alert]
    split
    · change world.resumptions ⊆ ((world.setState task _).enqueue (.resume task)).resumptions
      rw [resumptions_enqueue]
      exact List.subset_append_left _ _
    · exact List.Subset.refl _

theorem resumed_alert {task waited : Nat} {next : Outcome → Process}
    (waits : world.state? task = some (.awaiting waited next)) :
    task ∈ (alert outcome world (.resume task)).resumptions := by
  simp only [alert, waits, schedule, resumptions_enqueue, Handle.resumed?]
  simp

variable (watchers : List Watcher)

theorem state?_alertAll : (watchers.foldl (alert outcome) world).state? number =
    if number ∈ watchers.filterMap Watcher.awaiter? then
      (world.state? number).map (TaskState.awake outcome)
    else world.state? number := by
  induction watchers generalizing world with
  | nil => simp
  | cons watcher rest ih =>
    rw [List.foldl_cons, ih, state?_alert]
    have twice : TaskState.awake outcome ∘ TaskState.awake outcome = TaskState.awake outcome := by
      funext state
      cases state <;> rfl
    cases kind : watcher.awaiter? with
    | none => simp [kind]
    | some task =>
      by_cases same : task = number
      · subst same
        simp [kind, twice]
      · simp [kind, same, Ne.symm same]

theorem watchers_alertAll :
    (watchers.foldl (alert outcome) world).watchers number = world.watchers number := by
  induction watchers generalizing world with
  | nil => rfl
  | cons watcher rest ih => rw [List.foldl_cons, ih, watchers_alert]

theorem framed_alertAll : world.Framed (watchers.foldl (alert outcome) world) := by
  induction watchers generalizing world with
  | nil => rfl
  | cons watcher rest ih => exact (framed_alert outcome watcher).trans ih

theorem length_alertAll :
    (watchers.foldl (alert outcome) world).tasks.length = world.tasks.length := by
  induction watchers generalizing world with
  | nil => rfl
  | cons watcher rest ih => rw [List.foldl_cons, ih, length_alert]

theorem uncancelled_alertAll
    (uncancelled : ∀ task ∈ world.tasks, task.cancelRequested = false) :
    ∀ task ∈ (watchers.foldl (alert outcome) world).tasks, task.cancelRequested = false := by
  induction watchers generalizing world with
  | nil => exact uncancelled
  | cons watcher rest ih => exact ih (uncancelled_alert outcome watcher uncancelled)

theorem fulfilments_alertAll : (watchers.foldl (alert outcome) world).fulfilments =
    world.fulfilments ++ watchers.filterMap Watcher.joiner? := by
  induction watchers generalizing world with
  | nil => simp
  | cons watcher rest ih =>
    rw [List.foldl_cons, ih, fulfilments_alert]
    cases kind : watcher.joiner? <;> simp [kind]

theorem resumptions_alertAll :
    world.resumptions ⊆ (watchers.foldl (alert outcome) world).resumptions := by
  induction watchers generalizing world with
  | nil => exact List.Subset.refl _
  | cons watcher rest ih => exact List.Subset.trans (resumptions_alert outcome watcher) ih

theorem resumed_alertAll {task waited : Nat} {next : Outcome → Process}
    (waits : world.state? task = some (.awaiting waited next))
    (member : task ∈ watchers.filterMap Watcher.awaiter?) :
    task ∈ (watchers.foldl (alert outcome) world).resumptions := by
  induction watchers generalizing world with
  | nil => simp at member
  | cons watcher rest ih =>
    rw [List.foldl_cons]
    by_cases first : watcher.awaiter? = some task
    · cases watcher with
      | resume other =>
        obtain rfl : other = task := by simpa [Watcher.awaiter?] using first
        exact resumptions_alertAll outcome rest (resumed_alert outcome waits)
      | fulfil other => simp [Watcher.awaiter?] at first
      | notify callable => simp [Watcher.awaiter?] at first
    · have later : task ∈ rest.filterMap Watcher.awaiter? := by
        obtain ⟨found, inside, kind⟩ := List.mem_filterMap.1 member
        rcases List.mem_cons.1 inside with rfl | inside
        · exact absurd kind first
        · exact List.mem_filterMap.2 ⟨found, inside, kind⟩
      refine ih ?_ later
      rw [state?_alert, if_neg first, waits]

end Alerts

section Finish

variable (task : Nat) (outcome : Outcome)

theorem length_finish : (world.finish task outcome).tasks.length = world.tasks.length := by
  rw [finish, length_alertAll, length_close]

theorem framed_finish : world.Framed (world.finish task outcome) :=
  .trans (show world.Framed (world.close task outcome) from rfl) (framed_alertAll _ _)

theorem watchers_finish : (world.finish task outcome).watchers number =
    if number = task then [] else world.watchers number := by
  rw [finish, watchers_alertAll, watchers_close]

theorem fulfilments_finish :
    (world.finish task outcome).fulfilments = world.fulfilments ++ world.joiners task :=
  fulfilments_alertAll outcome _

theorem resumptions_finish : world.resumptions ⊆ (world.finish task outcome).resumptions :=
  show (world.close task outcome).resumptions ⊆ _ from resumptions_alertAll outcome _

theorem state?_finish (other : number ≠ task) : (world.finish task outcome).state? number =
    if number ∈ world.awaiters task then (world.state? number).map (TaskState.awake outcome)
    else world.state? number := by
  rw [finish, state?_alertAll, state?_close, if_neg other]
  rfl

theorem state?_finish_self (inside : task < world.tasks.length) :
    (world.finish task outcome).state? task = some (.done outcome) := by
  obtain ⟨state, known⟩ := Option.isSome_iff_exists.1 (state?_isSome.2 inside)
  rw [finish, state?_alertAll, state?_close, if_pos rfl, known]
  split <;> rfl

theorem outcome?_finish (other : number ≠ task) :
    (world.finish task outcome).outcome? number = world.outcome? number := by
  rw [outcome?, outcome?, state?_finish task outcome other]
  split
  · cases known : world.state? number with
    | none => rfl
    | some state => cases state <;> rfl
  · rfl

theorem outcome?_finish_self (inside : task < world.tasks.length) :
    (world.finish task outcome).outcome? task = some outcome :=
  outcome?_eq_some.2 (state?_finish_self task outcome inside)

end Finish

/-! ## The wiring is kept -/

/-- Only tasks and queue are wired. -/
theorem Wired.congr {next : World} {free : Option Nat} (wired : world.Wired free)
    (tasks : next.tasks = world.tasks)
    (queue : next.ready ++ next.soon = world.ready ++ world.soon) : next.Wired free := by
  have state (number : Nat) : next.state? number = world.state? number := by
    simp only [state?, tasks]
  have ended (number : Nat) : next.outcome? number = world.outcome? number := by
    simp only [outcome?, state]
  have watched (number : Nat) : next.watchers number = world.watchers number := by
    simp only [watchers, tasks]
  have fulfilments : next.fulfilments = world.fulfilments := by
    simp only [World.fulfilments, queue]
  have resumptions : next.resumptions = world.resumptions := by
    simp only [World.resumptions, queue]
  have joiners (number : Nat) : next.joiners number = world.joiners number := by
    simp only [World.joiners, watched]
  have awaiters (number : Nat) : next.awaiters number = world.awaiters number := by
    simp only [World.awaiters, watched]
  constructor
  · simpa only [tasks] using wired.uncancelled
  · intro number running
    obtain ⟨inside, unsettled, apart⟩ := wired.released number running
    refine ⟨by rwa [tasks], by rwa [ended], ?_, ?_, ?_⟩
    · simpa only [fulfilments] using apart.fulfilments
    · simpa only [joiners] using apart.joiners
    · simpa only [awaiters] using apart.awaiters
  · simpa only [fulfilments, state, ended] using wired.fulfilled
  · simpa only [fulfilments] using wired.fulfilledOnce
  · simpa only [joiners, state, ended] using wired.joined
  · simpa only [joiners] using wired.joinedOnce
  · simpa only [awaiters, state, ended] using wired.awaited
  · simpa only [state, resumptions] using wired.scheduled
  · simpa only [state, fulfilments, joiners] using wired.joins
  · simpa only [state, awaiters] using wired.awaits

section Kept

variable {free : Option Nat}

/-- A task that is neither joining nor awaiting is noted nowhere. -/
theorem Wired.unattached (wired : world.Wired free)
    (joins : ∀ task rest, world.state? number ≠ some (.joining task rest))
    (awaits : ∀ task next, world.state? number ≠ some (.awaiting task next)) :
    world.Unattached number where
  fulfilments member := by
    obtain ⟨task, rest, known, _⟩ := wired.fulfilled number member
    exact joins task rest known
  joiners task member := by
    obtain ⟨⟨rest, known⟩, _⟩ := wired.joined task number member
    exact joins task rest known
  awaiters task member := by
    obtain ⟨⟨next, known⟩, _⟩ := wired.awaited task number member
    exact awaits task next known

theorem lt_of_watched {task : Nat}
    (member : number ∈ world.joiners task ∨ number ∈ world.awaiters task) :
    task < world.tasks.length := by
  by_contra beyond
  rw [joiners_eq_nil (Nat.le_of_not_lt beyond), awaiters_eq_nil (Nat.le_of_not_lt beyond)] at member
  simp at member

theorem Wired.spawn (wired : world.Wired free) (process : Process) :
    (world.spawn process).1.Wired free := by
  have fulfilments : (world.spawn process).1.fulfilments = world.fulfilments := by
    simp [World.fulfilments, World.spawn, List.filterMap_append, Handle.fulfilled?]
  have resumptions : (world.spawn process).1.resumptions =
      world.resumptions ++ [world.tasks.length] := by
    simp [World.resumptions, World.spawn, List.filterMap_append, Handle.resumed?]
  have joiners (task : Nat) : (world.spawn process).1.joiners task = world.joiners task := by
    simp only [World.joiners, watchers_spawn]
  have awaiters (task : Nat) : (world.spawn process).1.awaiters task = world.awaiters task := by
    simp only [World.awaiters, watchers_spawn]
  have old {number : Nat} {state : TaskState} (known : world.state? number = some state) :
      (world.spawn process).1.state? number = some state := by
    rw [state?_spawn, if_neg (Nat.ne_of_lt (state?_lt known)), known]
  have unsettled {number : Nat} (inside : number < world.tasks.length) :
      (world.spawn process).1.outcome? number = world.outcome? number := by
    rw [outcome?, outcome?, state?_spawn, if_neg (Nat.ne_of_lt inside)]
  have length : (world.spawn process).1.tasks.length = world.tasks.length + 1 := by
    simp [World.spawn]
  have known {number : Nat} {state : TaskState}
      (found : (world.spawn process).1.state? number = some state) :
      number = world.tasks.length ∧ state = .scheduled process ∨
        world.state? number = some state := by
    rw [state?_spawn] at found
    split at found
    · simp_all
    · exact .inr found
  constructor
  · intro task member
    rcases List.mem_append.1 member with member | member
    · exact wired.uncancelled task member
    · rw [List.mem_singleton.1 member]
  · intro number running
    obtain ⟨inside, still, apart⟩ := wired.released number running
    refine ⟨by omega, by rwa [unsettled inside], ?_, ?_, ?_⟩
    · simpa only [fulfilments] using apart.fulfilments
    · simpa only [joiners] using apart.joiners
    · simpa only [awaiters] using apart.awaiters
  · intro number member
    rw [fulfilments] at member
    obtain ⟨task, rest, known, ended⟩ := wired.fulfilled number member
    obtain ⟨outcome, ended⟩ := Option.isSome_iff_exists.1 ended
    exact ⟨task, rest, old known, by rw [unsettled (outcome?_lt ended), ended]; rfl⟩
  · simpa only [fulfilments] using wired.fulfilledOnce
  · intro task number member
    rw [joiners] at member
    obtain ⟨⟨rest, known⟩, still⟩ := wired.joined task number member
    exact ⟨⟨rest, old known⟩, by rw [unsettled (lt_of_watched (.inl member)), still]⟩
  · simpa only [joiners] using wired.joinedOnce
  · intro task number member
    rw [awaiters] at member
    obtain ⟨⟨next, known⟩, still⟩ := wired.awaited task number member
    exact ⟨⟨next, old known⟩, by rw [unsettled (lt_of_watched (.inr member)), still]⟩
  · intro number rest found
    rw [resumptions]
    rcases known found with ⟨rfl, _⟩ | found
    · exact .inr (by simp)
    · rcases wired.scheduled number rest found with running | queued
      · exact .inl running
      · exact .inr (List.mem_append_left _ queued)
  · intro number task rest found
    rw [fulfilments, joiners]
    rcases known found with ⟨_, found⟩ | found
    · simp at found
    · exact wired.joins number task rest found
  · intro number task next found
    rw [awaiters]
    rcases known found with ⟨_, found⟩ | found
    · simp at found
    · exact wired.awaits number task next found

/-- A free task is put into a state, with its one note where the state belongs. -/
theorem Wired.put {next : World} (wired : world.Wired (some number)) (state : TaskState)
    (uncancelled : ∀ task ∈ next.tasks, task.cancelRequested = false)
    (states : ∀ other, next.state? other =
      if other = number then some state else world.state? other)
    (unsettled : state.outcome? = none)
    (fulfilments : ∀ other, other ∈ next.fulfilments ↔ other ∈ world.fulfilments ∨
      other = number ∧ ∃ task rest, state = .joining task rest ∧ (world.outcome? task).isSome)
    (fulfilledOnce : next.fulfilments.Nodup)
    (joiners : ∀ task other, other ∈ next.joiners task ↔ other ∈ world.joiners task ∨
      other = number ∧ (∃ rest, state = .joining task rest) ∧ world.outcome? task = none)
    (joinedOnce : ∀ task, (next.joiners task).Nodup)
    (awaiters : ∀ task other, other ∈ next.awaiters task ↔ other ∈ world.awaiters task ∨
      other = number ∧ (∃ further, state = .awaiting task further))
    (awaited : ∀ task further, state = .awaiting task further → world.outcome? task = none)
    (resumptions : world.resumptions ⊆ next.resumptions)
    (resumed : ∀ rest, state = .scheduled rest → number ∈ next.resumptions) :
    next.Wired none := by
  obtain ⟨inside, open', apart⟩ := wired.released number rfl
  have outcome (other : Nat) : next.outcome? other = world.outcome? other := by
    by_cases same : other = number
    · rw [same, open', outcome?, states, if_pos rfl]
      exact unsettled
    · rw [outcome?, states, if_neg same, outcome?]
  have elsewhere {other : Nat} {found : TaskState} (known : world.state? other = some found)
      (apart : other ≠ number) : next.state? other = some found := by
    rw [states, if_neg apart, known]
  have self : next.state? number = some state := by
    rw [states, if_pos rfl]
  constructor
  · exact uncancelled
  · simp
  · intro other member
    rcases (fulfilments other).1 member with member | ⟨rfl, task, rest, rfl, ended⟩
    · obtain ⟨task, rest, known, ended⟩ := wired.fulfilled other member
      refine ⟨task, rest, elsewhere known ?_, by rwa [outcome]⟩
      rintro rfl
      exact apart.fulfilments member
    · exact ⟨task, rest, self, by rwa [outcome]⟩
  · exact fulfilledOnce
  · intro task other member
    rcases (joiners task other).1 member with member | ⟨rfl, ⟨rest, rfl⟩, ended⟩
    · obtain ⟨⟨rest, known⟩, still⟩ := wired.joined task other member
      refine ⟨⟨rest, elsewhere known ?_⟩, by rwa [outcome]⟩
      rintro rfl
      exact apart.joiners task member
    · exact ⟨⟨rest, self⟩, by rwa [outcome]⟩
  · exact joinedOnce
  · intro task other member
    rcases (awaiters task other).1 member with member | ⟨rfl, further, rfl⟩
    · obtain ⟨⟨further, known⟩, still⟩ := wired.awaited task other member
      refine ⟨⟨further, elsewhere known ?_⟩, by rwa [outcome]⟩
      rintro rfl
      exact apart.awaiters task member
    · exact ⟨⟨further, self⟩, by rw [outcome, awaited task further rfl]⟩
  · intro other rest known
    right
    by_cases same : other = number
    · subst same
      rw [self, Option.some.injEq] at known
      exact resumed rest known
    · rw [states, if_neg same] at known
      rcases wired.scheduled other rest known with running | queued
      · exact absurd (Option.some.inj running).symm same
      · exact resumptions queued
  · intro other task rest known
    right
    by_cases same : other = number
    · subst same
      rw [self, Option.some.injEq] at known
      cases ended : world.outcome? task with
      | some outcome =>
        exact .inl ((fulfilments other).2 (.inr ⟨rfl, task, rest, known, by simp [ended]⟩))
      | none => exact .inr ((joiners task other).2 (.inr ⟨rfl, ⟨rest, known⟩, ended⟩))
    · rw [states, if_neg same] at known
      rcases wired.joins other task rest known with running | queued | watched
      · exact absurd (Option.some.inj running).symm same
      · exact .inl ((fulfilments other).2 (.inl queued))
      · exact .inr ((joiners task other).2 (.inl watched))
  · intro other task further known
    right
    by_cases same : other = number
    · subst same
      rw [self, Option.some.injEq] at known
      exact (awaiters task other).2 (.inr ⟨rfl, further, known⟩)
    · rw [states, if_neg same] at known
      rcases wired.awaits other task further known with running | watched
      · exact absurd (Option.some.inj running).symm same
      · exact (awaiters task other).2 (.inl watched)

/-- What `Wired.put` asks of a state is known of one that no task is noted for. -/
theorem Wired.put_plain (wired : world.Wired (some number)) (state : TaskState)
    (unsettled : state.outcome? = none) (joins : ∀ task rest, state ≠ .joining task rest)
    (awaits : ∀ task further, state ≠ .awaiting task further) {next : World}
    (tasks : next.tasks = (world.setState number state).tasks)
    (fulfilments : next.fulfilments = world.fulfilments)
    (resumptions : world.resumptions ⊆ next.resumptions)
    (resumed : ∀ rest, state = .scheduled rest → number ∈ next.resumptions) :
    next.Wired none := by
  obtain ⟨inside, _, _⟩ := wired.released number rfl
  have watchers (task : Nat) : next.watchers task = world.watchers task := by
    rw [World.watchers, tasks]
    exact watchers_setState _ _ _
  refine wired.put state ?_ ?_ unsettled ?_ ?_ ?_ ?_ ?_ ?_ resumptions resumed
  · rw [tasks]
    exact uncancelled_setState _ _ _ wired.uncancelled
  · intro other
    have known : next.state? other = (world.setState number state).state? other := by
      simp only [state?, tasks]
    rw [known, state?_put _ _ _ inside]
  · intro other
    simp [fulfilments, joins]
  · rw [fulfilments]
    exact wired.fulfilledOnce
  · intro task other
    simp [World.joiners, watchers, joins]
  · intro task
    rw [World.joiners, watchers]
    exact wired.joinedOnce task
  · intro task other
    simp [World.awaiters, watchers, awaits]
  · intro task further known
    exact absurd known (awaits task further)

theorem Wired.schedule (wired : world.Wired (some number)) (rest : Process) :
    (world.schedule number rest).Wired none := by
  have resumptions : (world.schedule number rest).resumptions = world.resumptions ++ [number] :=
    resumptions_enqueue _ _
  refine wired.put_plain (.scheduled rest) rfl (by simp) (by simp) rfl ?_ ?_ ?_
  · exact (fulfilments_enqueue (world.setState number (.scheduled rest)) (.resume number)).trans
      (List.append_nil _)
  · rw [resumptions]
    exact List.subset_append_left _ _
  · simp [resumptions]

theorem Wired.wait (wired : world.Wired (some number)) (gate : String) (rest : Process) :
    (world.setState number (.waiting gate rest)).Wired none :=
  wired.put_plain (.waiting gate rest) rfl (by simp) (by simp) rfl rfl
    (List.Subset.refl _) (by simp)

theorem joiners_setState (task : Nat) (state : TaskState) :
    (world.setState number state).joiners task = world.joiners task := by
  rw [joiners, watchers_setState, joiners]

theorem awaiters_setState (task : Nat) (state : TaskState) :
    (world.setState number state).awaiters task = world.awaiters task := by
  rw [awaiters, watchers_setState, awaiters]

theorem Wired.await (wired : world.Wired (some number)) {task : Nat}
    (inside : task < world.tasks.length) (unsettled : world.outcome? task = none)
    (further : Outcome → Process) :
    ((world.setState number (.awaiting task further)).watch task (.resume number)).Wired none := by
  obtain ⟨present, _, _⟩ := wired.released number rfl
  have uncancelled := uncancelled_setState world number (.awaiting task further) wired.uncancelled
  refine wired.put (.awaiting task further) (uncancelled_watch _ _ _ uncancelled) ?_ rfl ?_
    wired.fulfilledOnce ?_ ?_ ?_ ?_ (List.Subset.refl _) (by simp)
  · intro other
    rw [state?_watch, state?_put _ _ _ present]
  · intro other
    have same : ((world.setState number (.awaiting task further)).watch task
      (.resume number)).fulfilments = world.fulfilments := rfl
    simp [same]
  · intro place other
    simp [joiners_watch, joiners_setState, Watcher.joiner?]
  · intro place
    simpa [joiners_watch, joiners_setState, Watcher.joiner?] using wired.joinedOnce place
  · intro place other
    by_cases here : place = task
    · subst here
      simp [awaiters_watch, awaiters_setState, Watcher.awaiter?, inside]
    · simp [awaiters_watch, awaiters_setState, here, Ne.symm here]
  · rintro place further' equal
    cases equal
    exact unsettled

theorem Wired.join_open (wired : world.Wired (some number)) {task : Nat}
    (inside : task < world.tasks.length) (unsettled : world.outcome? task = none)
    (rest : Process) :
    ((world.setState number (.joining task rest)).watch task (.fulfil number)).Wired none := by
  obtain ⟨present, _, apart⟩ := wired.released number rfl
  have uncancelled := uncancelled_setState world number (.joining task rest) wired.uncancelled
  refine wired.put (.joining task rest) (uncancelled_watch _ _ _ uncancelled) ?_ rfl ?_
    wired.fulfilledOnce ?_ ?_ ?_ (by simp) (List.Subset.refl _) (by simp)
  · intro other
    rw [state?_watch, state?_put _ _ _ present]
  · intro other
    have same : ((world.setState number (.joining task rest)).watch task
      (.fulfil number)).fulfilments = world.fulfilments := rfl
    simp only [same, TaskState.joining.injEq]
    refine ⟨.inl, ?_⟩
    rintro (member | ⟨_, place, _, ⟨rfl, _⟩, ended⟩)
    · exact member
    · simp [unsettled] at ended
  · intro place other
    by_cases here : place = task
    · subst here
      simp [joiners_watch, joiners_setState, Watcher.joiner?, inside, unsettled]
    · simp [joiners_watch, joiners_setState, here, Ne.symm here]
  · intro place
    by_cases here : place = task
    · subst here
      simp only [joiners_watch, joiners_setState, Watcher.joiner?, length_setState, inside,
        and_self, if_true, Option.toList_some]
      exact List.nodup_append.2 ⟨wired.joinedOnce place, by simp, by
        rintro other member _ single rfl
        exact apart.joiners place (List.mem_singleton.1 single ▸ member)⟩
    · simpa [joiners_watch, joiners_setState, here] using wired.joinedOnce place
  · intro place other
    simp [awaiters_watch, awaiters_setState, Watcher.awaiter?]

theorem Wired.join_ended (wired : world.Wired (some number)) {task : Nat}
    (ended : (world.outcome? task).isSome) (rest : Process) :
    ((world.setState number (.joining task rest)).enqueue (.fulfil number)).Wired none := by
  obtain ⟨present, _, apart⟩ := wired.released number rfl
  have fulfilments : ((world.setState number (.joining task rest)).enqueue
      (.fulfil number)).fulfilments = world.fulfilments ++ [number] := fulfilments_enqueue _ _
  have resumptions : ((world.setState number (.joining task rest)).enqueue
      (.fulfil number)).resumptions = world.resumptions :=
    (resumptions_enqueue _ _).trans (List.append_nil _)
  refine wired.put (.joining task rest)
    (uncancelled_setState world number (.joining task rest) wired.uncancelled)
    (fun other => state?_put _ _ _ present) rfl ?_ ?_ ?_ ?_ ?_ (by simp) ?_ (by simp)
  · intro other
    simp [fulfilments, ended]
  · rw [fulfilments]
    exact List.nodup_append.2 ⟨wired.fulfilledOnce, by simp, by
      rintro other member _ single rfl
      exact apart.fulfilments (List.mem_singleton.1 single ▸ member)⟩
  · intro place other
    change other ∈ (world.setState number (.joining task rest)).joiners place ↔ _
    rw [joiners_setState]
    refine ⟨.inl, ?_⟩
    rintro (member | ⟨_, ⟨_, equal⟩, unsettled⟩)
    · exact member
    · cases equal
      simp [unsettled] at ended
  · intro place
    have same : (world.setState number (.joining task rest)).joiners place =
        world.joiners place := joiners_setState place _
    exact same ▸ wired.joinedOnce place
  · intro place other
    change other ∈ (world.setState number (.joining task rest)).awaiters place ↔ _
    simp [awaiters_setState]
  · rw [resumptions]
    exact List.Subset.refl _

/-- The end of a task frees those that wait for it. -/
theorem Wired.finish (wired : world.Wired (some number)) (outcome : Outcome) :
    (world.finish number outcome).Wired none := by
  obtain ⟨inside, unsettled, apart⟩ := wired.released number rfl
  have joiners (task : Nat) : (world.finish number outcome).joiners task =
      if task = number then [] else world.joiners task := by
    rw [World.joiners, watchers_finish]
    split <;> rfl
  have awaiters (task : Nat) : (world.finish number outcome).awaiters task =
      if task = number then [] else world.awaiters task := by
    rw [World.awaiters, watchers_finish]
    split <;> rfl
  have still {other : Nat} {state : TaskState} (known : world.state? other = some state)
      (differs : other ≠ number) (asleep : other ∉ world.awaiters number) :
      (world.finish number outcome).state? other = some state := by
    rw [state?_finish _ _ differs, if_neg asleep, known]
  have joining {other task : Nat} {rest : Process}
      (known : world.state? other = some (.joining task rest)) (differs : other ≠ number) :
      (world.finish number outcome).state? other = some (.joining task rest) := by
    refine still known differs fun member => ?_
    obtain ⟨⟨further, awaiting⟩, _⟩ := wired.awaited number other member
    simp [known] at awaiting
  have source {other : Nat} {state : TaskState}
      (found : (world.finish number outcome).state? other = some state) :
      other = number ∧ state = .done outcome ∨
        (other ∈ world.awaiters number ∧ ∃ further, state = .scheduled (further outcome) ∧
          world.state? other = some (.awaiting number further)) ∨
        other ∉ world.awaiters number ∧ other ≠ number ∧ world.state? other = some state := by
    by_cases same : other = number
    · subst same
      rw [state?_finish_self _ _ inside, Option.some.injEq] at found
      exact .inl ⟨rfl, found.symm⟩
    · rw [state?_finish _ _ same] at found
      by_cases member : other ∈ world.awaiters number
      · obtain ⟨⟨further, awaiting⟩, _⟩ := wired.awaited number other member
        rw [if_pos member, awaiting] at found
        exact .inr (.inl ⟨member, further, (Option.some.inj found).symm, awaiting⟩)
      · rw [if_neg member] at found
        exact .inr (.inr ⟨member, same, found⟩)
  constructor
  · exact uncancelled_alertAll _ _ (by
      intro task member
      obtain ⟨place, within, rfl⟩ := List.getElem_of_mem member
      simp only [close, List.length_modify] at within
      have known := wired.uncancelled _ (List.getElem_mem within)
      simp only [close, List.getElem_modify]
      split <;> exact known)
  · simp
  · intro other member
    rw [fulfilments_finish] at member
    rcases List.mem_append.1 member with queued | watched
    · obtain ⟨task, rest, known, ended⟩ := wired.fulfilled other queued
      refine ⟨task, rest, joining known ?_, ?_⟩
      · rintro rfl
        exact apart.fulfilments queued
      · rw [outcome?_finish]
        · exact ended
        · rintro rfl
          simp [unsettled] at ended
    · obtain ⟨⟨rest, known⟩, _⟩ := wired.joined number other watched
      refine ⟨number, rest, joining known ?_, by rw [outcome?_finish_self _ _ inside]; rfl⟩
      rintro rfl
      exact apart.joiners other watched
  · rw [fulfilments_finish]
    refine List.nodup_append.2 ⟨wired.fulfilledOnce, wired.joinedOnce number, ?_⟩
    rintro other queued _ watched rfl
    obtain ⟨task, rest, known, ended⟩ := wired.fulfilled other queued
    obtain ⟨⟨rest', known'⟩, _⟩ := wired.joined number other watched
    rw [known] at known'
    cases known'
    simp [unsettled] at ended
  · intro task other member
    rw [joiners] at member
    split at member
    · simp at member
    · rename_i differs
      obtain ⟨⟨rest, known⟩, still'⟩ := wired.joined task other member
      refine ⟨⟨rest, joining known ?_⟩, by rwa [outcome?_finish _ _ differs]⟩
      rintro rfl
      exact apart.joiners task member
  · intro task
    rw [joiners]
    split
    · exact List.nodup_nil
    · exact wired.joinedOnce task
  · intro task other member
    rw [awaiters] at member
    split at member
    · simp at member
    · rename_i differs
      obtain ⟨⟨further, known⟩, still'⟩ := wired.awaited task other member
      refine ⟨⟨further, still known ?_ ?_⟩, by rwa [outcome?_finish _ _ differs]⟩
      · rintro rfl
        exact apart.awaiters task member
      · intro member'
        obtain ⟨⟨_, known'⟩, _⟩ := wired.awaited number other member'
        rw [known] at known'
        cases known'
        exact differs rfl
  · intro other rest found
    right
    rcases source found with ⟨_, impossible⟩ | ⟨member, further, _, awaiting⟩ | ⟨_, differs, known⟩
    · cases impossible
    · have waits : (world.close number outcome).state? other =
          some (.awaiting number further) := by
        rw [state?_close, if_neg, awaiting]
        rintro rfl
        exact apart.awaiters other member
      exact resumed_alertAll outcome _ waits member
    · rcases wired.scheduled other rest known with running | queued
      · exact absurd (Option.some.inj running).symm differs
      · exact resumptions_finish _ _ queued
  · intro other task rest found
    right
    rw [fulfilments_finish, joiners]
    rcases source found with ⟨_, impossible⟩ | ⟨_, further, impossible, _⟩ | ⟨_, differs, known⟩
    · cases impossible
    · cases impossible
    · rcases wired.joins other task rest known with running | queued | watched
      · exact absurd (Option.some.inj running).symm differs
      · exact .inl (List.mem_append_left _ queued)
      · by_cases here : task = number
        · exact .inl (List.mem_append_right _ (here ▸ watched))
        · exact .inr (by rwa [if_neg here])
  · intro other task further found
    right
    rw [awaiters]
    rcases source found with ⟨_, impossible⟩ | ⟨_, _, impossible, _⟩ | ⟨asleep, differs, known⟩
    · cases impossible
    · cases impossible
    · rcases wired.awaits other task further known with running | watched
      · exact absurd (Option.some.inj running).symm differs
      · rw [if_neg]
        · exact watched
        · rintro rfl
          exact asleep watched

/-! ## A handle is taken -/

theorem Wired.take {next : World} (wired : world.Wired none) (tasks : next.tasks = world.tasks)
    (released : ∀ number, free = some number → number < world.tasks.length ∧
      world.outcome? number = none ∧ next.Unattached number)
    (fulfilments : next.fulfilments.Sublist world.fulfilments)
    (fulfilled : ∀ number ∈ world.fulfilments, number ∈ next.fulfilments ∨ free = some number)
    (resumed : ∀ number rest, world.state? number = some (.scheduled rest) →
      number ∈ world.resumptions → number ∈ next.resumptions ∨ free = some number) :
    next.Wired free := by
  have state (number : Nat) : next.state? number = world.state? number := by
    simp only [state?, tasks]
  have ended (number : Nat) : next.outcome? number = world.outcome? number := by
    simp only [outcome?, state]
  have joiners (number : Nat) : next.joiners number = world.joiners number := by
    simp only [World.joiners, watchers, tasks]
  have awaiters (number : Nat) : next.awaiters number = world.awaiters number := by
    simp only [World.awaiters, watchers, tasks]
  constructor
  · simpa only [tasks] using wired.uncancelled
  · simpa only [tasks, ended] using released
  · intro number member
    simpa only [state, ended] using wired.fulfilled number (fulfilments.subset member)
  · exact wired.fulfilledOnce.sublist fulfilments
  · simpa only [joiners, state, ended] using wired.joined
  · simpa only [joiners] using wired.joinedOnce
  · simpa only [awaiters, state, ended] using wired.awaited
  · intro number rest known
    rw [state] at known
    rcases wired.scheduled number rest known with impossible | queued
    · cases impossible
    · exact (resumed number rest known queued).symm
  · intro number task rest known
    rw [state] at known
    rw [joiners]
    rcases wired.joins number task rest known with impossible | queued | watched
    · cases impossible
    · rcases fulfilled number queued with queued | running
      · exact .inr (.inl queued)
      · exact .inl running
    · exact .inr (.inr watched)
  · intro number task further known
    rw [state] at known
    rw [awaiters]
    exact .inr ((wired.awaits number task further known).resolve_left (by simp))

/-- The first handle of the present turn is taken from the queue. -/
theorem taken_fulfilments {handle : Handle} {rest : List Handle}
    (first : world.ready = handle :: rest) : world.fulfilments =
      handle.fulfilled?.toList ++ { world with ready := rest }.fulfilments := by
  cases handle <;> simp [fulfilments, first, Handle.fulfilled?, List.filterMap_cons]

theorem taken_resumptions {handle : Handle} {rest : List Handle}
    (first : world.ready = handle :: rest) : world.resumptions =
      handle.resumed?.toList ++ { world with ready := rest }.resumptions := by
  cases handle <;> simp [resumptions, first, Handle.resumed?, List.filterMap_cons]

theorem Wired.take_resume {rest : List Handle} (wired : world.Wired none)
    (first : world.ready = .resume number :: rest) {process : Process}
    (scheduled : world.state? number = some (.scheduled process)) :
    { world with ready := rest }.Wired (some number) := by
  have fulfilments := taken_fulfilments first
  have resumptions := taken_resumptions first
  simp only [Handle.fulfilled?, Option.toList_none, List.nil_append] at fulfilments
  simp only [Handle.resumed?, Option.toList_some, List.singleton_append] at resumptions
  refine wired.take rfl ?_ ?_ ?_ ?_
  · rintro other running
    obtain rfl := Option.some.inj running
    have apart : world.Unattached number :=
      wired.unattached (by simp [scheduled]) (by simp [scheduled])
    refine ⟨state?_lt scheduled, by simp [outcome?, scheduled, TaskState.outcome?], ?_⟩
    exact ⟨fulfilments ▸ apart.fulfilments, apart.joiners, apart.awaiters⟩
  · exact fulfilments ▸ List.Sublist.refl _
  · exact fun other member => .inl (fulfilments ▸ member)
  · intro other _ _ member
    rw [resumptions] at member
    rcases List.mem_cons.1 member with rfl | later
    · exact .inr rfl
    · exact .inl later

theorem Wired.take_stale {rest : List Handle} (wired : world.Wired none)
    (first : world.ready = .resume number :: rest)
    (idle : ∀ process, world.state? number ≠ some (.scheduled process)) :
    { world with ready := rest }.Wired none := by
  have fulfilments := taken_fulfilments first
  have resumptions := taken_resumptions first
  simp only [Handle.fulfilled?, Option.toList_none, List.nil_append] at fulfilments
  simp only [Handle.resumed?, Option.toList_some, List.singleton_append] at resumptions
  refine wired.take rfl (by simp) (fulfilments ▸ List.Sublist.refl _) ?_ ?_
  · exact fun other member => .inl (fulfilments ▸ member)
  · intro other process known member
    rw [resumptions] at member
    rcases List.mem_cons.1 member with rfl | later
    · exact absurd known (idle process)
    · exact .inl later

theorem Wired.take_notice {rest : List Handle} {callable : Callable} {args : List Value}
    (wired : world.Wired none) (first : world.ready = .notify callable args :: rest) :
    { world with ready := rest }.Wired none := by
  have fulfilments := taken_fulfilments first
  have resumptions := taken_resumptions first
  simp only [Handle.fulfilled?, Option.toList_none, List.nil_append] at fulfilments
  simp only [Handle.resumed?, Option.toList_none, List.nil_append] at resumptions
  refine wired.take rfl (by simp) (fulfilments ▸ List.Sublist.refl _) ?_ ?_
  · exact fun other member => .inl (fulfilments ▸ member)
  · exact fun other _ _ member => .inl (resumptions ▸ member)

theorem Wired.take_fulfil {rest : List Handle} (wired : world.Wired none)
    (first : world.ready = .fulfil number :: rest) :
    { world with ready := rest }.Wired (some number) := by
  have fulfilments := taken_fulfilments first
  have resumptions := taken_resumptions first
  simp only [Handle.fulfilled?, Option.toList_some, List.singleton_append] at fulfilments
  simp only [Handle.resumed?, Option.toList_none, List.nil_append] at resumptions
  have once := wired.fulfilledOnce
  rw [fulfilments, List.nodup_cons] at once
  obtain ⟨task, process, known, ended⟩ := wired.fulfilled number (by simp [fulfilments])
  refine wired.take rfl ?_ ?_ ?_ ?_
  · rintro other running
    obtain rfl := Option.some.inj running
    refine ⟨state?_lt known, by simp [outcome?, known, TaskState.outcome?], once.1, ?_, ?_⟩
    · intro place member
      obtain ⟨⟨_, known'⟩, unsettled⟩ := wired.joined place number member
      rw [known] at known'
      cases known'
      simp [unsettled] at ended
    · intro place member
      obtain ⟨⟨_, known'⟩, _⟩ := wired.awaited place number member
      simp [known] at known'
  · exact fulfilments ▸ List.sublist_cons_self _ _
  · intro other member
    rw [fulfilments] at member
    rcases List.mem_cons.1 member with rfl | later
    · exact .inr rfl
    · exact .inl later
  · exact fun other _ _ member => .inl (resumptions ▸ member)

/-- A task that waits for a gate can be freed at any time. -/
theorem Wired.take_waiting (wired : world.Wired none) {gate : String} {rest : Process}
    (waiting : world.state? number = some (.waiting gate rest)) :
    world.Wired (some number) := by
  refine wired.take rfl ?_ (List.Sublist.refl _) (fun _ => .inl) (fun _ _ _ => .inl)
  rintro other running
  obtain rfl := Option.some.inj running
  exact ⟨state?_lt waiting, by simp [outcome?, waiting, TaskState.outcome?],
    wired.unattached (by simp [waiting]) (by simp [waiting])⟩

end Kept

end World

end FeatureRunner
