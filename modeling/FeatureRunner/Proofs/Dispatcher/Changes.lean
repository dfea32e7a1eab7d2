import FeatureRunner.Proofs.Dispatcher.Discreet
import FeatureRunner.Proofs.World.Loop

/-!
The changes of the subscriptions that a run makes: those that its steps ask for, in their order, and
no others. As long as nothing that is left to do touches the handlers of the collector, all of them
concern scripted listeners.
-/

namespace FeatureRunner
open FeatureRunner.World

namespace World

/-- The change of the subscriptions that the next step makes. -/
def edit? (world : World) : Option Edit :=
  world.current.bind fun running => running.2.edit?

/-- Whatever is left to do leaves the handlers of the collector alone. -/
structure Discreet (world : World) : Prop where
  tasks : ∀ number state, world.state? number = some state → state.rest.Discreet
  current : ∀ owner process, world.current = some (owner, process) → process.Discreet

end World

theorem Edit.applyAll_append (early late : List Edit) (dispatcher : Dispatcher) :
    Edit.applyAll (early ++ late) dispatcher = Edit.applyAll late (Edit.applyAll early dispatcher) :=
  List.foldl_append

namespace World

/-- The changes that the steps of a run have made. -/
def History.edits (history : History) : List Edit :=
  history.filterMap World.edit?

theorem History.edits_append (early late : History) :
    History.edits (early ++ late) = early.edits ++ late.edits :=
  List.filterMap_append

/-- The subscriptions have gone through some changes, which others than the collector have made, and
what is left to do is discreet. -/
structure Edited (world : World) (edits : List Edit) (next : World) : Prop where
  discreet : next.Discreet
  dispatcher : next.dispatcher = Edit.applyAll edits world.dispatcher
  scripted : ∀ edit ∈ edits, edit.Scripted

theorem Edited.trans {world mid next : World} {early late : List Edit} (first : world.Edited early mid)
    (second : mid.Edited late next) : world.Edited (early ++ late) next where
  discreet := second.discreet
  dispatcher := by rw [second.dispatcher, first.dispatcher, Edit.applyAll_append]
  scripted edit member := (List.mem_append.1 member).elim (first.scripted edit) (second.scripted edit)

/-- Nothing has changed that matters to the subscriptions. -/
theorem Edited.still {world next : World} (discreet : next.Discreet)
    (dispatcher : next.dispatcher = world.dispatcher) : world.Edited [] next :=
  ⟨discreet, dispatcher, nofun⟩

section Steps

variable {world next : World} {owner : Owner} {process : Process} {number : Nat}

theorem discreet_initial (clock : Calendar.Moment) : (World.initial clock).Discreet where
  tasks number state known := by
    simp [World.initial, state?] at known
  current _ _ := nofun

namespace Discreet

variable (discreet : world.Discreet)
include discreet

theorem congr (tasks : next.tasks = world.tasks) (current : next.current = world.current) :
    next.Discreet where
  tasks number state known := by
    rw [state?, tasks] at known
    exact discreet.tasks number state known
  current owner process running := discreet.current owner process (current ▸ running)

theorem idle : { world with current := none }.Discreet where
  tasks := discreet.tasks
  current _ _ := nofun

theorem proceed (owner : Owner) (further : process.Discreet) : (world.proceed owner process).Discreet where
  tasks := discreet.tasks
  current _ _ := by
    rintro ⟨⟩
    exact further

theorem setState {state : TaskState} (number : Nat) (further : state.rest.Discreet) :
    (world.setState number state).Discreet where
  tasks other state' known := by
    rw [state?_setState] at known
    split at known
    · obtain ⟨before, -, rfl⟩ := Option.map_eq_some_iff.1 known
      exact further
    · exact discreet.tasks other state' known
  current := discreet.current

theorem schedule (number : Nat) (further : process.Discreet) :
    (world.schedule number process).Discreet :=
  (show (world.setState number (.scheduled process)).Discreet from
    discreet.setState number further).congr rfl rfl

theorem watch (number : Nat) (watcher : Watcher) : (world.watch number watcher).Discreet where
  tasks other state known := by
    rw [state?_watch] at known
    exact discreet.tasks other state known
  current := discreet.current

theorem spawn (further : process.Discreet) : (world.spawn process).1.Discreet where
  tasks other state known := by
    rw [state?_spawn] at known
    split at known
    · cases known
      exact further
    · exact discreet.tasks other state known
  current := discreet.current

theorem finish (number : Nat) (outcome : Outcome) : (world.finish number outcome).Discreet where
  tasks other state known := by
    rw [World.finish, state?_alertAll, state?_close] at known
    have closed (state : TaskState) (known : (if other = number then
        (world.state? other).map fun _ => TaskState.done outcome else world.state? other) = some state) :
        state.rest.Discreet := by
      split at known
      · obtain ⟨before, -, rfl⟩ := Option.map_eq_some_iff.1 known
        exact .done outcome
      · exact discreet.tasks other state known
    split at known
    · obtain ⟨before, found, rfl⟩ := Option.map_eq_some_iff.1 known
      have known := closed before found
      cases before with
      | awaiting task next =>
        cases known with
        | await further => exact further outcome
      | _ => exact known
    · exact closed state known
  current owner process running := by
    have framed : world.Framed (world.finish number outcome) := framed_finish number outcome
    rw [framed] at running
    exact discreet.current owner process running

theorem release (gate : String) (number : Nat) : (release gate world number).Discreet := by
  unfold World.release
  split
  · rename_i waited rest waiting
    split
    · cases discreet.tasks number _ waiting with
      | wait further => exact discreet.schedule number further
    · exact discreet
  · exact discreet

theorem openGate (gate : String) : (world.openGate gate).Discreet := by
  have released (numbers : List Nat) (world : World) (discreet : world.Discreet) :
      (numbers.foldl (World.release gate) world).Discreet := by
    induction numbers generalizing world with
    | nil => exact discreet
    | cons number rest ih => exact ih _ (discreet.release gate number)
  exact released _ _ (discreet.congr rfl rfl)

theorem respond (request : Request) : (world.respond request).2.Discreet := by
  by_cases steady : ∀ role, request ≠ .recorder role .recover
  · have rests : world.Rests (world.respond request).2 := respond_rests request steady
    exact discreet.congr rests.tasks rests.current
  · obtain ⟨role, rfl⟩ : ∃ role, request = .recorder role .recover := by simpa using steady
    rcases recover_cases world with ⟨rests, _⟩ | ⟨previous, _, _, _, result⟩
    · exact discreet.congr rests.tasks rests.current
    · change world.recover.2.Discreet
      rw [result]
      exact (discreet.spawn (abandoned_discreet previous)).congr rfl rfl

theorem addTask (name : String) {body : Process} (work : body.Discreet) :
    (world.addTask name body).2.Discreet := by
  rcases addTask_cases world name body with ⟨_, result⟩ | ⟨_, result⟩
  · rwa [result]
  · rw [result]
    exact (discreet.spawn (task_discreet _ _ _ work)).congr rfl rfl

/-- A process waits, or a call from outside is given up. -/
theorem suspend {leave : Nat → World} (leaves : ∀ number, (leave number).Discreet) :
    (world.suspend owner leave).Discreet := by
  cases owner with
  | task number => exact leaves number
  | caller => exact discreet.congr rfl rfl

theorem runNode (owner : Owner) (process : Process) (further : process.Discreet) :
    (world.runNode owner process).Discreet := by
  cases further with
  | done outcome =>
    cases owner with
    | task number => exact discreet.finish number outcome
    | caller => exact discreet.congr rfl rfl
  | ask asks further => exact (discreet.respond _).proceed owner (further _)
  | call further =>
    exact discreet.proceed owner ((Callable.process_discreet _ _ _).andThen further)
  | leave further => exact discreet.proceed owner further
  | add work further => exact (discreet.addTask _ work).proceed owner (further _)
  | @await task next further =>
    have waiting (number : Nat) : (world.setState number (.awaiting task next)).Discreet :=
      discreet.setState number (.await further)
    simp only [World.runNode]
    split
    · exact discreet.proceed owner (further _)
    · split
      · exact discreet.proceed owner (further _)
      · exact discreet.suspend fun number => (waiting number).watch _ _
  | @join task rest further =>
    have waiting (number : Nat) : (world.setState number (.joining task rest)).Discreet :=
      discreet.setState number (.join further)
    simp only [World.runNode]
    split
    · exact discreet.proceed owner further
    · refine discreet.suspend fun number => ?_
      split
      · exact (waiting number).congr rfl rfl
      · exact (waiting number).watch _ _
  | @wait gate rest further =>
    have waiting (number : Nat) : (world.setState number (.waiting gate rest)).Discreet :=
      discreet.setState number (.wait further)
    simp only [World.runNode]
    split
    · exact discreet.proceed owner further
    · exact discreet.suspend waiting
  | yield further => exact discreet.suspend fun number => discreet.schedule number further

end Discreet

/-! ## Steps -/

theorem dispatcher_finish (number : Nat) (outcome : Outcome) :
    (world.finish number outcome).dispatcher = world.dispatcher := by
  have framed : world.Framed (world.finish number outcome) := framed_finish number outcome
  rw [framed]

theorem dispatcher_respond (request : Request) : (world.respond request).2.dispatcher =
    Edit.applyAll request.edit?.toList world.dispatcher := by
  cases request with
  | recorder role call =>
    cases call with
    | recover => exact recover_alike.dispatcher
    | _ => rfl
  | count instanceNumber amount =>
    change (world.addToTotal instanceNumber amount).2.dispatcher = world.dispatcher
    unfold addToTotal
    split <;> rfl
  | _ => rfl

theorem dispatcher_suspend {leave : Nat → World}
    (leaves : ∀ number, (leave number).dispatcher = world.dispatcher) :
    (world.suspend owner leave).dispatcher = world.dispatcher := by
  cases owner with
  | task number => exact leaves number
  | caller => rfl

theorem dispatcher_runNode (owner : Owner) (process : Process) :
    (world.runNode owner process).dispatcher =
      Edit.applyAll process.edit?.toList world.dispatcher := by
  cases process with
  | done outcome =>
    cases owner with
    | task number => exact dispatcher_finish number outcome
    | caller => rfl
  | ask request next => exact dispatcher_respond request
  | call => rfl
  | leave => rfl
  | add role name body next => exact (addTask_alike name body).dispatcher
  | await task next =>
    simp only [World.runNode]
    split
    · rfl
    · split
      · rfl
      · exact dispatcher_suspend fun _ => rfl
  | join task rest =>
    simp only [World.runNode]
    split
    · rfl
    · refine dispatcher_suspend fun number => ?_
      split <;> rfl
  | wait gate rest =>
    simp only [World.runNode]
    split
    · rfl
    · exact dispatcher_suspend fun _ => rfl
  | yield rest => exact dispatcher_suspend fun _ => rfl

theorem Edited.handle (discreet : world.Discreet) (handle : Handle) :
    world.Edited [] (world.handle handle) := by
  have same : world.Edited [] world := .still discreet rfl
  cases handle with
  | notify callable args =>
    exact .still (discreet.proceed _ (.call .done)) rfl
  | fulfil number =>
    simp only [World.handle]
    split
    · rename_i waiting
      cases discreet.tasks number _ waiting with
      | join further => exact .still (discreet.schedule number further) rfl
    · exact same
  | resume number =>
    simp only [World.handle, World.resume]
    split
    · rename_i rest cancelled watchers found
      split
      · exact .still (discreet.finish number _) (dispatcher_finish number _)
      · have known : world.state? number = some (.scheduled rest) := by simp [state?, found]
        exact .still (discreet.proceed _ (discreet.tasks number _ known)) rfl
    · exact same

theorem Discreet.scripted (discreet : world.Discreet) : ∀ edit ∈ world.edit?.toList, edit.Scripted := by
  intro edit member
  obtain ⟨⟨owner, process⟩, running, asks⟩ := Option.bind_eq_some_iff.1 (Option.mem_toList.1 member)
  cases discreet.current owner process running with
  | ask scripted => exact scripted edit asks
  | _ => cases asks

/-- A step changes the subscriptions as it asks for. -/
theorem Edited.step (discreet : world.Discreet) (moved : world.step? = some next) :
    world.Edited world.edit?.toList next := by
  have scripted := discreet.scripted
  unfold step? at moved
  split at moved
  · rename_i owner process running
    cases moved
    have edit : world.edit? = process.edit? := by simp [World.edit?, running]
    rw [edit] at scripted ⊢
    exact ⟨discreet.idle.runNode owner process (discreet.current owner process running),
      dispatcher_runNode owner process, scripted⟩
  · rename_i handle rest idle queued
    cases moved
    have edit : world.edit? = none := by simp [World.edit?, idle]
    have before : World.Discreet { world with ready := rest } := discreet.congr rfl rfl
    have handled := Edited.handle before handle
    rw [edit]
    exact .still handled.discreet handled.dispatcher
  · cases moved

/-! ## Runs -/

/-- A run of which nothing is asked from outside changes the subscriptions as its steps ask for. -/
theorem Edited.of_run {passed : History} (run : Run (fun _ _ => False) world passed next)
    (discreet : world.Discreet) : world.Edited passed.edits next := by
  induction run with
  | refl => exact .still discreet rfl
  | @step passed mid next _ moved ih =>
    have last : History.edits [mid] = mid.edit?.toList := by
      cases edit : mid.edit? <;> simp [History.edits, edit]
    rw [History.edits_append, last]
    exact ih.trans (.step ih.discreet moved)
  | @between passed mid next _ between ih =>
    refine List.append_nil passed.edits ▸ ih.trans ?_
    cases between with
    | turn => exact .still (ih.discreet.congr rfl rfl) rfl
    | gate name idle =>
      refine .still (ih.discreet.openGate name) ?_
      have framed : World.Framed { mid with openGates := name :: mid.openGates }
        (mid.openGate name) := framed_releaseAll name _
      rw [framed]
    | outside comes => exact comes.elim

theorem Discreet.cancelAll (discreet : world.Discreet) : world.cancelAll.Discreet where
  tasks number state known := by
    simp only [state?, World.cancelAll, List.getElem?_map, Option.map_map,
      Option.map_eq_some_iff] at known
    obtain ⟨task, found, rfl⟩ := known
    have before : task.state.rest.Discreet := discreet.tasks number _ (by simp [state?, found])
    simp only [Function.comp_apply]
    split
    · exact before
    · exact .done _
  current := discreet.current

/-- A loop of its own changes the subscriptions as its steps ask for. -/
theorem Edited.loop {program : Program Value} (discreet : world.Discreet)
    (further : program.Discreet) :
    world.Edited (world.loopPast program).edits (world.runLoop program).2 := by
  have begun : World.Discreet { world with looping := true } := discreet.congr rfl rfl
  have started : world.Edited [] (world.loopStart program) :=
    .still (begun.spawn further.toProcess) rfl
  have ran := started.trans (.of_run (.loop world program) started.discreet)
  have closed : (world.loopEnd program).Edited [] (world.runLoop program).2 :=
    .still (ran.discreet.cancelAll.congr rfl rfl) rfl
  have all := ran.trans closed
  rwa [List.nil_append, List.append_nil] at all

end Steps

end World

end FeatureRunner
