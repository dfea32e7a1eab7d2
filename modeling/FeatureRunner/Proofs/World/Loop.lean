import FeatureRunner.Proofs.Recorder.Serial

/-!
A loop that runs one task, as a run. What a loop leaves unfinished it cancels; when all tasks have
ended there is nothing to cancel, and where the recorder is started again a run may begin as if
nothing had been before.
-/

namespace FeatureRunner
open FeatureRunner.World

namespace World

/-! ## The worlds that a loop passes through -/

/-- The worlds that the steps of a turn are taken from. -/
def turnPast : Nat → World → History
  | 0, _ => []
  | bound + 1, world =>
    match world.step? with
    | some next => world :: turnPast bound next
    | none => []

/-- The worlds that steps are taken from in turns until a task has ended. -/
def untilPast (task : Nat) : Nat → World → History
  | 0, _ => []
  | bound + 1, world =>
    if (world.outcome? task).isSome || world.soon.isEmpty then []
    else world.nextTurn.turnPast limit ++ untilPast task bound (world.nextTurn.runTurn limit)

/-- The world in which a loop of its own begins with a program. -/
def loopStart (world : World) (program : Program Value) : World :=
  ({ world with looping := true }.spawn program.toProcess).1

/-- The world in which the loop ends, before anything is cancelled. -/
def loopEnd (world : World) (program : Program Value) : World :=
  ((world.loopStart program).runUntil world.tasks.length limit).nextTurn.runTurn limit

/-- The worlds that the loop takes steps from. -/
def loopPast (world : World) (program : Program Value) : History :=
  (world.loopStart program).untilPast world.tasks.length limit ++
    ((world.loopStart program).runUntil world.tasks.length limit).nextTurn.turnPast limit

section Runs

variable {outside : World → World → Prop}

theorem Run.turn (bound : Nat) (world : World) :
    Run outside world (world.turnPast bound) (world.runTurn bound) := by
  induction bound generalizing world with
  | zero => exact .refl
  | succ bound ih =>
    unfold turnPast World.runTurn
    cases moved : world.step? with
    | some next => exact (Run.refl.step moved).trans (ih next)
    | none => exact .refl

theorem Run.next (world : World) (bound : Nat) :
    Run outside world (world.nextTurn.turnPast bound) (world.nextTurn.runTurn bound) :=
  (Run.refl.between .turn).trans (Run.turn bound world.nextTurn)

theorem Run.until (task bound : Nat) (world : World) :
    Run outside world (world.untilPast task bound) (world.runUntil task bound) := by
  induction bound generalizing world with
  | zero => exact .refl
  | succ bound ih =>
    unfold untilPast World.runUntil
    split
    · exact .refl
    · exact (Run.next world limit).trans (ih _)

theorem Run.loop (world : World) (program : Program Value) :
    Run outside (world.loopStart program) (world.loopPast program) (world.loopEnd program) :=
  (Run.until _ _ _).trans (Run.next _ _)

end Runs

variable {world next : World}

/-! ## Steps of a turn -/

theorem runTurn_of_step {bound : Nat} (moved : world.step? = some next) :
    world.runTurn (bound + 1) = next.runTurn bound := by
  simp [runTurn, moved]

theorem of_step?_none (still : world.step? = none) : world.current = none ∧ world.ready = [] := by
  unfold step? at still
  split at still
  · cases still
  · cases still
  · rename_i idle none
    exact ⟨idle, none⟩

theorem runTurn_of_none (bound : Nat) (still : world.step? = none) : world.runTurn bound = world := by
  cases bound with
  | zero => rfl
  | succ bound => simp [runTurn, still]

/-! ## The end of a loop -/

theorem outcome?_cancelAll (number : Nat) : world.cancelAll.outcome? number =
    (world.state? number).map fun state => (state.outcome?).getD (.error .cancelled) := by
  simp only [outcome?, state?, cancelAll, List.getElem?_map, Option.map_map]
  cases world.tasks[number]? with
  | none => rfl
  | some task => cases found : task.state <;> simp [TaskState.outcome?, found]

/-- What a loop answers is how its task has ended. -/
theorem runLoop_outcome (world : World) (program : Program Value) : (world.runLoop program).1 =
    ((world.loopEnd program).outcome? world.tasks.length).getD (.error .cancelled) := by
  change ((world.loopEnd program).cancelAll.outcome? world.tasks.length).getD (.error .cancelled) = _
  rw [outcome?_cancelAll, outcome?]
  cases (world.loopEnd program).state? world.tasks.length <;> rfl

/-- What a loop answers well its task has ended with. -/
theorem outcome?_of_runLoop {program : Program Value} {value : Value}
    (answers : (world.runLoop program).1 = .ok value) :
    (world.loopEnd program).outcome? world.tasks.length = some (.ok value) := by
  rw [runLoop_outcome] at answers
  cases ended : (world.loopEnd program).outcome? world.tasks.length with
  | none => simp [ended] at answers
  | some outcome => simpa [ended] using answers

/-- All tasks have ended. -/
def Finished (world : World) : Prop :=
  ∀ number < world.tasks.length, (world.outcome? number).isSome

theorem Finished.done (finished : world.Finished) {number : Nat} {state : TaskState}
    (known : world.state? number = some state) : ∃ outcome, state = .done outcome := by
  have ended := finished number (state?_lt known)
  obtain ⟨outcome, ended⟩ := Option.isSome_iff_exists.1 ended
  exact ⟨outcome, Option.some.inj (known.symm.trans (outcome?_eq_some.1 ended))⟩

/-- Nothing is cancelled where all tasks have ended. -/
theorem tasks_of_cancelAll (finished : world.Finished) : world.cancelAll.tasks = world.tasks := by
  change world.tasks.map _ = _
  refine (List.map_congr_left fun task member => ?_).trans (List.map_id _)
  obtain ⟨number, inside, rfl⟩ := List.getElem_of_mem member
  have known : world.state? number = some world.tasks[number].state := by simp [state?, inside]
  obtain ⟨outcome, done⟩ := finished.done known
  simp [done]

/-- A queue from which handles were dropped does no harm where all tasks have ended. -/
theorem Wired.drop {free : Option Nat} (wired : world.Wired free) (finished : world.Finished)
    (tasks : next.tasks = world.tasks) (ready : next.ready = world.ready) (soon : next.soon = []) :
    next.Wired free := by
  have states (number : Nat) : next.state? number = world.state? number := by
    simp only [state?, tasks]
  have watched (number : Nat) : next.watchers number = world.watchers number := by
    simp only [watchers, tasks]
  have outcome (number : Nat) : next.outcome? number = world.outcome? number := by
    simp only [outcome?, states]
  have fulfilments (number : Nat) : number ∉ next.fulfilments := by
    intro member
    have member' : number ∈ world.fulfilments := by
      rw [World.fulfilments, ready, soon, List.append_nil] at member
      rw [World.fulfilments, List.filterMap_append]
      exact List.mem_append_left _ member
    obtain ⟨task, rest, known, _⟩ := wired.fulfilled number member'
    obtain ⟨_, same⟩ := finished.done known
    cases same
  have joiners (task : Nat) : next.joiners task = world.joiners task := by
    simp only [World.joiners, watched]
  have awaiters (task : Nat) : next.awaiters task = world.awaiters task := by
    simp only [World.awaiters, watched]
  have done {number : Nat} {state : TaskState} (known : next.state? number = some state)
      (open' : ∀ outcome, state ≠ .done outcome) : False := by
    obtain ⟨outcome, same⟩ := finished.done ((states _).symm.trans known)
    exact open' outcome same
  constructor
  case uncancelled => simpa only [tasks] using wired.uncancelled
  case released =>
    intro number same
    obtain ⟨inside, unsettled, _⟩ := wired.released number same
    have ended := finished number inside
    rw [unsettled] at ended
    cases ended
  case fulfilled => exact fun number member => absurd member (fulfilments number)
  case fulfilledOnce => simp [List.eq_nil_iff_forall_not_mem.2 fulfilments]
  case joined =>
    intro task number member
    rw [joiners] at member
    simpa only [states, outcome] using wired.joined task number member
  case joinedOnce => exact fun task => joiners task ▸ wired.joinedOnce task
  case awaited =>
    intro task number member
    rw [awaiters] at member
    simpa only [states, outcome] using wired.awaited task number member
  case scheduled => exact fun number rest known => (done known (by rintro _ ⟨⟩)).elim
  case joins => exact fun number task rest known => (done known (by rintro _ ⟨⟩)).elim
  case awaits => exact fun number task next known => (done known (by rintro _ ⟨⟩)).elim

end World

/-! ## A new session -/

section Finished

variable {passed : History} {world next : World}

/-- Where all tasks have ended it does not matter what was left in the queue. -/
theorem Serial.drop (serial : Serial passed world) (finished : world.Finished)
    (tasks : next.tasks = world.tasks) (current : next.current = world.current)
    (ready : next.ready = world.ready) (soon : next.soon = [])
    (session : world.recorder.session ≤ next.recorder.session)
    (tail : Follows next passed.links next.recorder.session next.tasks.length next.recorder.tail) :
    Serial passed next := by
  have outcome (number : Nat) : next.outcome? number = world.outcome? number := by
    simp only [outcome?, state?, tasks]
  have busy : next.busy = world.busy := by simp only [World.busy, current]
  have length : next.tasks.length = world.tasks.length := by rw [tasks]
  have left (owner : Owner) : next.process? owner = world.process? owner :=
    process?_congr tasks current
  constructor
  case wired => exact busy ▸ serial.wired.drop finished tasks ready soon
  case uncancelled => exact fun number => outcome number ▸ serial.uncancelled number
  case increasing => exact serial.increasing
  case inside => exact fun link member => length ▸ serial.inside link member
  case staged =>
    intro link member process known
    rw [left] at known
    exact (serial.staged link member process known).congr fun _ _ ended => (outcome _).trans ended
  case others => exact fun owner process known => serial.others owner process (left owner ▸ known)
  case silent => exact fun number beyond => serial.silent number (length ▸ beyond)
  case sessions => exact fun link member => Nat.le_trans (serial.sessions link member) session
  case follows =>
    intro link member
    have grown : Follows next (passed.links ++ []) link.session link.number link.previous :=
      (serial.follows link member).grow [] (by simp) fun number ended => by rwa [outcome]
    simpa using grown
  case tail => exact tail
  case spoken => exact serial.spoken

/-- Where all tasks have ended a new session begins as after a run. -/
theorem Serial.renew (serial : Serial passed world)
    (finished : world.Finished) (tasks : next.tasks = world.tasks)
    (current : next.current = world.current) (ready : next.ready = world.ready)
    (soon : next.soon = []) (session : world.recorder.session ≤ next.recorder.session)
    (tail : next.recorder.tail = none) : Serial passed next := by
  refine serial.drop finished tasks current ready soon session ?_
  rw [tail]
  refine ⟨by rintro _ ⟨⟩, fun link member _ _ => ⟨by rintro _ ⟨⟩, fun _ => ?_⟩⟩
  have ended := finished _ (serial.inside link member)
  simpa only [outcome?, state?, tasks] using ended

/-- Where all tasks have ended a session goes on when its loop is closed. -/
theorem Serial.close (serial : Serial passed world) (finished : world.Finished) :
    Serial passed { world.cancelAll with looping := false } := by
  have tasks := tasks_of_cancelAll finished
  refine serial.drop finished tasks rfl rfl rfl (Nat.le_refl _) ?_
  have grown : Follows { world.cancelAll with looping := false } (passed.links ++ [])
      world.recorder.session world.tasks.length world.recorder.tail :=
    serial.tail.grow [] (by simp) fun number ended => by
      simpa only [outcome?, state?, tasks] using ended
  rw [List.append_nil] at grown
  exact tasks ▸ grown

end Finished

/-- In a run without anything from outside every new task is one of the chain. -/
theorem Serial.linked {before passed : History} {start world : World} (serial : Serial before start)
    (run : Run (fun _ _ => False) start passed world) :
    ∀ number < world.tasks.length, number < start.tasks.length ∨
      ∃ link ∈ History.links (before ++ passed), link.number = number := by
  have quiet {passed : History} {world : World}
      (run : Run (fun _ _ => False) start passed world) : Serial (before ++ passed) world := by
    induction run with
    | refl => simpa using serial
    | step _ moved ih => simpa using ih.step moved
    | between _ between ih => exact ih.between (between.mono fun none => none.elim)
  induction run with
  | refl => exact fun number inside => .inl inside
  | @step passed world next run moved ih =>
    intro number inside
    rw [← List.append_assoc, History.links_append]
    by_cases old : number < world.tasks.length
    · refine (ih number old).imp_right ?_
      rintro ⟨link, member, same⟩
      exact ⟨link, List.mem_append_left _ member, same⟩
    · have serial := quiet run
      obtain ⟨after, left⟩ := process?_isSome inside
      have evolves := (step?_stepped serial.wired moved).evolves left
      have beyond {process : Process} (known : world.process? (.task number) = some process) :
          False := old (process?_lt serial.wired known)
      have new : number = world.tasks.length := by
        cases evolves with
        | passes known => exact (beyond known).elim
        | asks running => exact (beyond (process?_of_running running)).elim
        | calls running => exact (beyond (process?_of_running running)).elim
        | leaves running => exact (beyond (process?_of_running running)).elim
        | adds running => exact (beyond (process?_of_running running)).elim
        | added _ _ new => exact Owner.task.inj new
        | stands _ _ _ _ new => exact Owner.task.inj new
        | told caller => cases caller
      subst new
      obtain ⟨link, made, _⟩ := serial.staged_new evolves
      exact .inr ⟨link, List.mem_append_right _ (Option.mem_toList.2 made), (Serial.number_of_link made).1⟩
  | @between passed world next run between ih =>
    intro number inside
    rcases between.calm_or with calm | none
    · exact ih number (calm.length ▸ inside)
    · exact none.elim

end FeatureRunner
