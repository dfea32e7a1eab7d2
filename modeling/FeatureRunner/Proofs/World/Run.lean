import FeatureRunner.Proofs.World.Wiring

/-!
Runs of the loop. A run takes steps, and between them turns begin, gates open and something may
come from outside. Every step is one of a few: it does what the process at hand does next, it ends
a task, it begins to tell a callable, or it merely lets processes go on that wait for nothing.
-/

namespace FeatureRunner

/-- How a process goes on where it waits, once what it waits for has come. -/
inductive Process.Passes (world : World) : Process → Process → Prop
  | refl (process : Process) : Passes world process process
  | await {task : Nat} {next : Outcome → Process} {outcome : Outcome}
      (ended : world.outcome? task = some outcome) : Passes world (.await task next) (next outcome)
  | awaitNone {task : Nat} {next : Outcome → Process} (beyond : world.tasks.length ≤ task) :
      Passes world (.await task next) (next (.error (.fault .resultNotSet)))
  | join {task : Nat} {rest : Process}
      (ended : task < world.tasks.length → (world.outcome? task).isSome) :
      Passes world (.join task rest) rest
  | wait {gate : String} {rest : Process} : Passes world (.wait gate rest) rest
  | yield {rest : Process} : Passes world (.yield rest) rest

/-- Whether an act is a place where a process may wait. -/
def Act.Waits : Act → Prop
  | await _ | join _ | wait _ | yield => True
  | _ => False

theorem Process.Passes.congr {world next : World} {before after : Process}
    (passes : before.Passes world after) (length : next.tasks.length = world.tasks.length)
    (outcomes : ∀ number, next.outcome? number = world.outcome? number) :
    before.Passes next after := by
  cases passes with
  | refl => exact .refl _
  | await ended => exact .await ((outcomes _).trans ended)
  | awaitNone beyond => exact .awaitNone (length ▸ beyond)
  | join ended =>
    refine .join fun inside => ?_
    rw [outcomes]
    exact ended (length ▸ inside)
  | wait => exact .wait
  | yield => exact .yield

/-- No task has been cancelled. -/
def World.Uncancelled (world : World) : Prop :=
  ∀ number, world.outcome? number ≠ some (.error .cancelled)

theorem World.Uncancelled.plain {world : World} (uncancelled : world.Uncancelled) {number : Nat}
    {outcome : Outcome} (ended : world.outcome? number = some outcome) :
    FeatureRunner.Uncancelled outcome :=
  fun cancelled => uncancelled number (cancelled ▸ ended)

/-- A process that goes on where it waits keeps its law, if no stop is a place to wait. -/
theorem Process.Passes.keeps {world : World} {law : Law} {stops : Process → Prop}
    {before after : Process} (passes : before.Passes world after) (uncancelled : world.Uncancelled)
    (closed : law.Closed) (waits : ∀ act, act.Waits → law.assumes act)
    (keeps : before.Keeps law stops)
    (active : stops before → ∀ act, before.act? = some act → ¬act.Waits) :
    after.Keeps law stops := by
  have next {act : Act} (moves : Next law act before after) (waiting : act.Waits) :
      after.Keeps law stops :=
    keeps.next (fun stopped => active stopped act moves.act? waiting) closed moves
      (waits act waiting)
  cases passes with
  | refl => exact keeps
  | await ended => exact next (.await (uncancelled.plain ended)) trivial
  | awaitNone beyond => exact next (.await (uncancelled_fault _)) trivial
  | join ended => exact next .join trivial
  | wait => exact next .wait trivial
  | yield => exact next .yield trivial

theorem Process.Passes.obeys {world : World} {law : Law} {before after : Process}
    (passes : before.Passes world after) (uncancelled : world.Uncancelled) (closed : law.Closed)
    (waits : ∀ act, act.Waits → law.assumes act) (lawful : before.Obeys law) :
    after.Obeys law :=
  passes.keeps uncancelled closed waits lawful fun ended act acts => absurd acts (by simp [ended.act?])

/-- What becomes of a state when a gate opens. -/
def TaskState.freed (gate : String) : TaskState → TaskState
  | waiting waited rest => if waited == gate then .scheduled rest else .waiting waited rest
  | state => state

namespace World

/-- The task whose process is being run. -/
def busy (world : World) : Option Nat :=
  match world.current with
  | some (.task number, _) => some number
  | _ => none

/-- What is left to do of a process that is not being run. A call from outside is not taken up
again. -/
def asleep? (world : World) : Owner → Option Process
  | .task number => world.standing number
  | .caller => none

/-- What is left to do of a task, or of the call from outside. -/
def process? (world : World) (owner : Owner) : Option Process :=
  match world.current with
  | some (running, process) => if running = owner then some process else world.asleep? owner
  | none => world.asleep? owner

/-- What the next step does, and for whom. -/
def act? (world : World) : Option (Owner × Act) :=
  world.current.bind fun running => running.2.act?.map (running.1, ·)

/-- All but the tasks and the loop. -/
def scene (world : World) : World :=
  { world with
    tasks := [], openGates := [], current := none, ready := [], soon := [], answer := none }

/-- Processes go on where they waited, and nothing else has changed. -/
structure Flows (world next : World) : Prop where
  scene : next.scene = world.scene
  length : next.tasks.length = world.tasks.length
  passes : ∀ owner after, next.process? owner = some after →
    ∃ before, world.process? owner = some before ∧ before.Passes next after

/-- Besides, no task has ended. -/
structure Calm (world next : World) : Prop extends Flows world next where
  outcomes : ∀ number, next.outcome? number = world.outcome? number

/-- What a step does. -/
inductive Stepped (world : World) : World → Prop
  | asks {owner : Owner} {request : Request} {branch : request.Answer → Process}
      (running : world.current = some (owner, .ask request branch)) :
      Stepped world ((world.respond request).2.proceed owner (branch (world.respond request).1))
  | calls {owner : Owner} {role : Role} {callable : Callable} {args : List Value}
      {branch : Outcome → Process}
      (running : world.current = some (owner, .call role callable args branch)) :
      Stepped world (world.proceed owner ((callable.process role args).andThen branch))
  | leaves {owner : Owner} {role : Role} {outcome : Outcome} {rest : Process}
      (running : world.current = some (owner, .leave role outcome rest)) :
      Stepped world (world.proceed owner rest)
  | adds {owner : Owner} {role : Role} {name : String} {body : Process}
      {branch : Except Fault Nat → Process}
      (running : world.current = some (owner, .add role name body branch)) :
      Stepped world ((world.addTask name body).2.proceed owner
        (branch (world.addTask name body).1))
  | ends {number : Nat} {outcome : Outcome} {next : World}
      (running : world.current = some (.task number, .done outcome)) (flows : world.Flows next)
      (ended : next.outcome? number = some outcome)
      (others : ∀ other, other ≠ number → next.outcome? other = world.outcome? other) :
      Stepped world next
  | notices {callable : Callable} {args : List Value} {next : World}
      (idle : world.current = none) (calm : world.Calm next) (quiet : next.current = none) :
      Stepped world (next.proceed .caller (.call .notice callable args .done))
  | passes {next : World} (waits : ∀ owner act, world.act? = some (owner, act) → act.Waits)
      (calm : world.Calm next) : Stepped world next

/-- What happens between two steps. -/
inductive Between (outside : World → World → Prop) (world : World) : World → Prop
  | turn : Between outside world world.nextTurn
  | gate (gate : String) (idle : world.current = none) : Between outside world (world.openGate gate)
  | outside {next : World} (comes : outside world next) : Between outside world next

/-- The worlds that the steps of a run were taken from. -/
abbrev History := List World

inductive Run (outside : World → World → Prop) (start : World) : History → World → Prop
  | refl : Run outside start [] start
  | step {passed : History} {world next : World} (run : Run outside start passed world)
      (moved : world.step? = some next) : Run outside start (passed ++ [world]) next
  | between {passed : History} {world next : World} (run : Run outside start passed world)
      (between : world.Between outside next) : Run outside start passed next

/-- What may come from outside the loop: processes of a kind, as calls or as tasks, the wish to be
told of the end of a task, and changes of anything but the tasks, the queue and the recorder. -/
inductive Intervention (brings : Process → Prop) (world : World) : World → Prop
  | enters {process : Process} (brought : brings process) (idle : world.current = none) :
      Intervention brings world
        { world with current := some (.caller, process), answer := none }
  | spawns {process : Process} (brought : brings process) :
      Intervention brings world (world.spawn process).1
  | watches (task : Nat) (callable : Callable) :
      Intervention brings world (world.watch task (.notify callable))
  | alters {next : World} (apart : next = { next with
        recorder := world.recorder, tasks := world.tasks, current := world.current
        ready := world.ready, soon := world.soon }) :
      Intervention brings world next

/-! ## What is left to do -/

section Left

variable {world next : World} {owner other : Owner} {process : Process} {number : Nat}

theorem process?_of_running (running : world.current = some (owner, process)) :
    world.process? owner = some process := by
  simp [process?, running]

theorem process?_of_idle (idle : world.current = none) :
    world.process? owner = world.asleep? owner := by
  simp [process?, idle]

theorem process?_of_apart (running : world.current = some (owner, process))
    (apart : owner ≠ other) : world.process? other = world.asleep? other := by
  simp [process?, running, apart]

theorem process?_proceed : (world.proceed owner process).process? other =
    if owner = other then some process else world.asleep? other := rfl

theorem process?_congr (tasks : next.tasks = world.tasks) (current : next.current = world.current) :
    next.process? owner = world.process? owner := by
  have same : next.asleep? owner = world.asleep? owner := by
    cases owner with
    | caller => rfl
    | task number => simp only [asleep?, standing, state?, tasks]
  simp only [process?, current, same]

/-- A process that goes on leaves all others where they are. -/
theorem process?_proceed_of_apart {before : Process}
    (running : world.current = some (owner, before)) (tasks : next.tasks = world.tasks)
    (apart : owner ≠ other) :
    (next.proceed owner process).process? other = world.process? other := by
  have same : next.asleep? other = world.asleep? other := by
    cases other with
    | caller => rfl
    | task number => simp only [asleep?, standing, state?, tasks]
  rw [process?_proceed, if_neg apart, process?_of_apart running apart, same]

theorem process?_lt (wired : world.Wired world.busy)
    (left : world.process? (.task number) = some process) : number < world.tasks.length := by
  have asleep (known : world.asleep? (.task number) = some process) :
      number < world.tasks.length := by
    obtain ⟨state, known, _⟩ := Option.map_eq_some_iff.1 known
    exact state?_lt known
  unfold process? at left
  split at left
  · rename_i running before current
    split at left
    · rename_i same
      subst same
      exact (wired.released number (by simp [busy, current])).1
    · exact asleep left
  · exact asleep left

theorem process?_isSome (inside : number < world.tasks.length) :
    ∃ process, world.process? (.task number) = some process := by
  obtain ⟨state, known⟩ := Option.isSome_iff_exists.1 (state?_isSome.2 inside)
  have asleep : world.asleep? (.task number) = some state.rest := by
    simp [asleep?, standing, known]
  unfold process?
  split
  · split
    · exact ⟨_, rfl⟩
    · exact ⟨_, asleep⟩
  · exact ⟨_, asleep⟩

theorem standing_of_outcome {outcome : Outcome} (ended : world.outcome? number = some outcome) :
    world.standing number = some (.done outcome) := by
  simp [standing, outcome?_eq_some.1 ended, TaskState.rest]

/-- Nothing is left to do of a task that has ended. -/
theorem process?_of_outcome {outcome : Outcome} (wired : world.Wired world.busy)
    (ended : world.outcome? number = some outcome) :
    world.process? (.task number) = some (.done outcome) := by
  unfold process?
  split
  · rename_i running before current
    split
    · rename_i same
      subst same
      have unsettled := (wired.released number (by simp [busy, current])).2.1
      simp [ended] at unsettled
    · exact standing_of_outcome ended
  · exact standing_of_outcome ended

end Left

/-! ## Answers and the loop -/

/-- Tasks, queue and what is being run are the same. -/
structure Rests (world next : World) : Prop where
  tasks : next.tasks = world.tasks
  current : next.current = world.current
  ready : next.ready = world.ready
  soon : next.soon = world.soon
  looping : next.looping = world.looping

section Answers

variable {world next : World} {free : Option Nat}

theorem Rests.wired (rests : world.Rests next) (wired : world.Wired free) : next.Wired free :=
  wired.congr rests.tasks (by rw [rests.ready, rests.soon])

theorem Rests.outcome? (rests : world.Rests next) (number : Nat) :
    next.outcome? number = world.outcome? number := by
  simp only [World.outcome?, state?, rests.tasks]

theorem addToTotal_rests (instanceNumber : Nat) (amount : Value) :
    world.Rests (world.addToTotal instanceNumber amount).2 := by
  unfold addToTotal
  split <;> exact ⟨rfl, rfl, rfl, rfl, rfl⟩

/-- Only `recover` can add a task when a request is answered. -/
theorem respond_rests (request : Request) (steady : ∀ role, request ≠ .recorder role .recover) :
    world.Rests (world.respond request).2 := by
  cases request with
  | count instanceNumber amount => exact addToTotal_rests instanceNumber amount
  | recorder role call =>
    cases call with
    | recover => exact absurd rfl (steady role)
    | start => exact ⟨rfl, rfl, rfl, rfl, rfl⟩
    | stop => exact ⟨rfl, rfl, rfl, rfl, rfl⟩
    | startUnlessRunning => exact ⟨rfl, rfl, rfl, rfl, rfl⟩
  | _ => exact ⟨rfl, rfl, rfl, rfl, rfl⟩

theorem recover_cases (world : World) :
    (world.Rests world.recover.2 ∧ (world.recover.2 = world ∧ world.looping = false ∨
      world.recover.2 = { world with recorder := { world.recorder with tail := none } } ∧
        ∀ previous, world.recorder.tail = some previous →
          (world.outcome? previous).isSome)) ∨
    ∃ previous, world.recorder.tail = some previous ∧ world.outcome? previous = none ∧
      world.looping = true ∧ world.recover.2 = { (world.spawn (Recorder.abandoned previous).toProcess).1 with
        recorder := { world.recorder with tail := some world.tasks.length } } := by
  unfold recover
  split
  · rename_i none
    exact .inl ⟨⟨rfl, rfl, rfl, rfl, rfl⟩, .inr ⟨rfl, by simp [none]⟩⟩
  · rename_i previous some
    dsimp only
    split
    · rename_i ended
      refine .inl ⟨⟨rfl, rfl, rfl, rfl, rfl⟩, .inr ⟨rfl, ?_⟩⟩
      rintro other same
      rwa [← Option.some.inj (some.symm.trans same)]
    · rename_i open'
      split
      · rename_i still
        exact .inl ⟨⟨rfl, rfl, rfl, rfl, rfl⟩, .inl ⟨rfl, by simpa using still⟩⟩
      · rename_i looping
        exact .inr ⟨previous, some, by simpa using open', by simpa using looping, rfl⟩

theorem addTask_cases (world : World) (name : String) (body : Process) :
    (world.looping = false ∧ world.addTask name body = (.error .noRunningLoop, world)) ∨
    (world.looping = true ∧ world.addTask name body = (.ok world.tasks.length,
      { (world.spawn (Recorder.task world.recorder.session world.recorder.tail name
          (.ofProcess body)).toProcess).1 with
        recorder := { world.recorder with tail := some world.tasks.length } })) := by
  unfold addTask
  cases looping : world.looping with
  | false => exact .inl ⟨rfl, rfl⟩
  | true => exact .inr ⟨rfl, rfl⟩

theorem Wired.respond (wired : world.Wired free) (request : Request) :
    (world.respond request).2.Wired free := by
  by_cases steady : ∀ role, request ≠ .recorder role .recover
  · exact (respond_rests request steady).wired wired
  · obtain ⟨role, rfl⟩ : ∃ role, request = .recorder role .recover := by
      simpa using steady
    rcases recover_cases world with ⟨rests, _⟩ | ⟨previous, _, _, _, result⟩
    · exact rests.wired wired
    · change world.recover.2.Wired free
      rw [result]
      exact (wired.spawn _).congr rfl rfl

theorem Wired.addTask (wired : world.Wired free) (name : String) (body : Process) :
    (world.addTask name body).2.Wired free := by
  rcases addTask_cases world name body with ⟨_, result⟩ | ⟨_, result⟩
  · rwa [result]
  · rw [result]
    exact (wired.spawn _).congr rfl rfl

/-- An answer does not depend on what is being run. -/
theorem respond_set_current (current : Option (Owner × Process)) (request : Request) :
    ({ world with current := current } : World).respond request =
      ((world.respond request).1, { (world.respond request).2 with current := current }) := by
  cases request with
  | count instanceNumber amount =>
    simp only [World.respond, addToTotal]
    split <;> rfl
  | recorder role call =>
    cases call with
    | recover =>
      simp only [World.respond, operate, recover]
      split
      · rfl
      · have same (task : Nat) : ({ world with current := current } : World).outcome? task =
            world.outcome? task := rfl
        simp only [same]
        split
        · rfl
        · split <;> rfl
    | _ => rfl
  | _ => rfl

theorem addTask_set_current (current : Option (Owner × Process)) (name : String)
    (body : Process) : ({ world with current := current } : World).addTask name body =
      ((world.addTask name body).1, { (world.addTask name body).2 with current := current }) := by
  by_cases idle : (!world.looping) = true
  · simp only [World.addTask, if_pos idle]
  · simp only [World.addTask, if_neg idle]
    rfl

end Answers

/-! ## The wiring is kept along every run -/

theorem wired_initial (clock : Calendar.Moment) : (World.initial clock).Wired none where
  uncancelled := by simp [World.initial]
  released := by simp
  fulfilled := by simp [World.initial, fulfilments]
  fulfilledOnce := by simp [World.initial, fulfilments]
  joined := by simp [World.initial, joiners, watchers]
  joinedOnce := by simp [World.initial, joiners, watchers]
  awaited := by simp [World.initial, awaiters, watchers]
  scheduled := by simp [World.initial, state?]
  joins := by simp [World.initial, state?]
  awaits := by simp [World.initial, state?]

section Kept

variable {world next : World} {owner : Owner}

theorem Wired.turn {free : Option Nat} (wired : world.Wired free) : world.nextTurn.Wired free :=
  wired.congr rfl (by simp [nextTurn])

theorem Wired.release (wired : world.Wired none) (gate : String) (number : Nat) :
    (release gate world number).Wired none := by
  unfold World.release
  split
  · rename_i waited rest waiting
    split
    · exact (wired.take_waiting waiting).schedule rest
    · exact wired
  · exact wired

theorem Wired.openGate (wired : world.Wired none) (gate : String) :
    (world.openGate gate).Wired none := by
  have opened : { world with openGates := gate :: world.openGates }.Wired none :=
    wired.congr rfl rfl
  have all (numbers : List Nat) (world : World) (wired : world.Wired none) :
      (numbers.foldl (World.release gate) world).Wired none := by
    induction numbers generalizing world with
    | nil => exact wired
    | cons number rest ih => exact ih _ (wired.release gate number)
  exact all _ _ opened

/-- Adding one who is only told changes no wiring. -/
theorem Wired.watch_notify {free : Option Nat} (wired : world.Wired free) (task : Nat)
    (callable : Callable) : (world.watch task (.notify callable)).Wired free := by
  have joiners (number : Nat) : (world.watch task (.notify callable)).joiners number =
      world.joiners number := by
    rw [joiners_watch]
    split <;> simp [Watcher.joiner?]
  have awaiters (number : Nat) : (world.watch task (.notify callable)).awaiters number =
      world.awaiters number := by
    rw [awaiters_watch]
    split <;> simp [Watcher.awaiter?]
  have state (number : Nat) : (world.watch task (.notify callable)).state? number =
      world.state? number := state?_watch _ _ _
  have outcome (number : Nat) : (world.watch task (.notify callable)).outcome? number =
      world.outcome? number := by
    simp only [World.outcome?, state]
  have length : (world.watch task (.notify callable)).tasks.length = world.tasks.length := by
    simp [watch]
  constructor
  · exact uncancelled_watch _ _ _ wired.uncancelled
  · intro number running
    obtain ⟨inside, still, apart⟩ := wired.released number running
    refine ⟨by rwa [length], by rwa [outcome], apart.fulfilments, ?_, ?_⟩
    · simpa only [joiners] using apart.joiners
    · simpa only [awaiters] using apart.awaiters
  · intro number member
    simpa only [state, outcome] using wired.fulfilled number member
  · exact wired.fulfilledOnce
  · simpa only [joiners, state, outcome] using wired.joined
  · simpa only [joiners] using wired.joinedOnce
  · simpa only [awaiters, state, outcome] using wired.awaited
  · intro number rest known
    exact wired.scheduled number rest (by rwa [state] at known)
  · intro number task' rest known
    rw [state] at known
    rw [joiners]
    exact wired.joins number task' rest known
  · simpa only [state, awaiters] using wired.awaits

theorem Wired.handle {handle : Handle} {rest : List Handle} (wired : world.Wired none)
    (idle : world.current = none) (first : world.ready = handle :: rest) :
    ({ world with ready := rest }.handle handle).Wired
      ({ world with ready := rest }.handle handle).busy := by
  cases handle with
  | notify callable args => exact (wired.take_notice first).congr rfl rfl
  | fulfil number =>
    obtain ⟨task, process, known, ended⟩ := wired.fulfilled number (by
      simp [taken_fulfilments first, Handle.fulfilled?])
    have taken : { world with ready := rest }.state? number = some (.joining task process) := known
    simp only [World.handle, taken]
    have kept := (wired.take_fulfil first).schedule process
    rwa [show (World.schedule { world with ready := rest } number process).busy = none by
      simp [busy, World.schedule, World.enqueue, setState, idle]]
  | resume number =>
    simp only [World.handle, World.resume]
    split
    · rename_i process cancelRequested watchers found
      have member : (⟨.scheduled process, cancelRequested, watchers⟩ : Task) ∈ world.tasks :=
        List.mem_of_getElem? found
      have uncancelled : cancelRequested = false := wired.uncancelled _ member
      have scheduled : world.state? number = some (.scheduled process) := by
        simp only [state?]
        exact congrArg (Option.map Task.state) found
      simp only [uncancelled, Bool.false_eq_true, if_false]
      exact (wired.take_resume first scheduled).congr rfl rfl
    · rename_i other
      have stale : ∀ process, world.state? number ≠ some (.scheduled process) := by
        intro process scheduled
        simp only [state?, Option.map_eq_some_iff] at scheduled
        obtain ⟨⟨state, cancelRequested, watchers⟩, found, same⟩ := scheduled
        dsimp only at same
        subst same
        exact other _ _ _ found
      have kept := wired.take_stale first stale
      rwa [show ({ world with ready := rest } : World).busy = none by simp [busy, idle]]

theorem Wired.runNode {process : Process} (idle : world.current = none)
    (wired : world.Wired ({ world with current := some (owner, process) } : World).busy) :
    (world.runNode owner process).Wired (world.runNode owner process).busy := by
  have goes {next : World} (after : Process)
      (kept : next.Wired ({ world with current := some (owner, process) } : World).busy) :
      (next.proceed owner after).Wired (next.proceed owner after).busy := by
    cases owner with
    | caller => exact kept.congr rfl rfl
    | task number => exact kept.congr rfl rfl
  have leaves (place : Nat → World) (quiet : ∀ number, (place number).current = none)
      (kept : ∀ number, owner = .task number → (place number).Wired none) :
      (world.suspend owner place).Wired (world.suspend owner place).busy := by
    cases owner with
    | caller =>
      rw [show (world.suspend .caller place).busy = none by simp [World.suspend, busy, idle]]
      exact wired.congr rfl rfl
    | task number =>
      rw [show (world.suspend (.task number) place).busy = none by
        simp [World.suspend, busy, quiet]]
      exact kept number rfl
  have free (number : Nat) (mine : owner = .task number) : world.Wired (some number) := by
    subst mine
    exact wired
  cases process with
  | done outcome =>
    cases owner with
    | caller =>
      rw [show (world.runNode .caller (.done outcome)).busy = none by
        simp [World.runNode, conclude, busy, idle]]
      exact wired.congr rfl rfl
    | task number =>
      have quiet : (world.finish number outcome).current = none := by
        have framed : world.Framed (world.finish number outcome) := framed_finish number outcome
        rw [framed]
        exact idle
      rw [show (world.runNode (.task number) (.done outcome)).busy = none by
        simp [World.runNode, conclude, busy, quiet]]
      exact (free number rfl).finish outcome
  | ask request next => exact goes _ (wired.respond request)
  | call role callable args next => exact goes _ wired
  | leave role outcome rest => exact goes _ wired
  | add role name body next => exact goes _ (wired.addTask name body)
  | await task next =>
    simp only [World.runNode]
    split
    · exact goes _ wired
    · rename_i inside
      split
      · exact goes _ wired
      · rename_i unsettled
        exact leaves _ (fun _ => idle) fun number mine =>
          (free number mine).await (Nat.lt_of_not_le inside) unsettled next
  | join task rest =>
    simp only [World.runNode]
    split
    · exact goes _ wired
    · rename_i inside
      refine leaves _ (fun _ => by split <;> exact idle) fun number mine => ?_
      split
      · rename_i ended
        exact (free number mine).join_ended ended rest
      · rename_i unsettled
        exact (free number mine).join_open (Nat.lt_of_not_le inside) (by simpa using unsettled) rest
  | wait gate rest =>
    simp only [World.runNode]
    split
    · exact goes _ wired
    · exact leaves _ (fun _ => idle) fun number mine => (free number mine).wait gate rest
  | yield rest =>
    exact leaves _ (fun _ => idle) fun number mine => (free number mine).schedule rest

theorem Wired.step (wired : world.Wired world.busy) (moved : world.step? = some next) :
    next.Wired next.busy := by
  unfold step? at moved
  split at moved
  · rename_i owner process running
    obtain rfl := Option.some.inj moved
    have same : ({ world with current := some (owner, process) } : World).busy = world.busy := by
      simp [busy, running]
    exact Wired.runNode rfl (same ▸ wired.congr rfl rfl)
  · rename_i handle rest idle first
    obtain rfl := Option.some.inj moved
    have none : world.busy = none := by simp [busy, idle]
    exact (none ▸ wired).handle idle first
  · simp at moved

end Kept

/-! ## Every step is one of the kinds -/

section Kinds

variable {world next : World} {owner : Owner} {number : Nat}

/-- When nothing is being run afterwards, it is enough to know where the tasks stand. -/
theorem Flows.of_states (scene : next.scene = world.scene)
    (length : next.tasks.length = world.tasks.length) (idle : next.current = none)
    (states : ∀ number after, next.state? number = some after →
      ∃ before, world.process? (.task number) = some before ∧ before.Passes next after.rest) :
    world.Flows next := by
  refine ⟨scene, length, fun owner after left => ?_⟩
  rw [process?_of_idle idle] at left
  cases owner with
  | caller => cases left
  | task number =>
    obtain ⟨state, known, rfl⟩ := Option.map_eq_some_iff.1 left
    exact states number state known

theorem asleep?_of_state {state : TaskState} (known : world.state? number = some state) :
    world.asleep? (.task number) = some state.rest := by
  simp [asleep?, standing, known]

theorem process?_of_state {state : TaskState} (apart : world.busy ≠ some number)
    (known : world.state? number = some state) :
    world.process? (.task number) = some state.rest := by
  unfold process?
  split
  · rename_i running process current
    rw [if_neg, asleep?_of_state known]
    rintro rfl
    simp [busy, current] at apart
  · exact asleep?_of_state known

theorem Calm.of_same (scene : next.scene = world.scene) (tasks : next.tasks = world.tasks)
    (current : next.current = world.current) : world.Calm next where
  scene := scene
  length := by rw [tasks]
  passes owner after left := ⟨after, by rwa [← process?_congr tasks current], .refl after⟩
  outcomes number := by simp only [outcome?, state?, tasks]

/-- The process at hand goes on. -/
theorem Calm.of_proceed {before after : Process} (running : world.current = some (owner, before))
    (passes : before.Passes (world.proceed owner after) after) :
    world.Calm (world.proceed owner after) where
  scene := rfl
  length := rfl
  outcomes _ := rfl
  passes other left found := by
    by_cases same : owner = other
    · subst same
      rw [process?_proceed, if_pos rfl, Option.some.injEq] at found
      subst found
      exact ⟨before, process?_of_running running, passes⟩
    · rw [process?_proceed_of_apart running rfl same] at found
      exact ⟨left, found, .refl left⟩

/-- One task is put into another state and goes on, or stays where it is. -/
theorem Calm.of_put {before : Process} (state : TaskState) (scene : next.scene = world.scene)
    (idle : next.current = none) (only : ∀ other, world.busy = some other → other = number)
    (left : world.process? (.task number) = some before)
    (states : ∀ other, next.state? other =
      if other = number then some state else world.state? other)
    (length : next.tasks.length = world.tasks.length)
    (passes : before.Passes next state.rest) (still : world.outcome? number = none)
    (unsettled : state.outcome? = none) : world.Calm next where
  toFlows := by
    refine .of_states scene length idle fun other after known => ?_
    rw [states] at known
    split at known
    · rename_i same
      cases known
      exact ⟨before, same ▸ left, passes⟩
    · rename_i apart
      refine ⟨after.rest, process?_of_state ?_ known, .refl _⟩
      exact fun running => apart (only other running)
  outcomes other := by
    by_cases same : other = number
    · rw [same, still, outcome?, states, if_pos rfl]
      exact unsettled
    · rw [outcome?, states, if_neg same, outcome?]

theorem framed_release (gate : String) : world.Framed (release gate world number) := by
  unfold release
  split
  · split <;> rfl
  · rfl

theorem state?_release (gate : String) {other : Nat} : (release gate world number).state? other =
    if other = number then (world.state? other).map (TaskState.freed gate)
    else world.state? other := by
  unfold release
  split
  · rename_i waited rest waiting
    split
    · rename_i open'
      have inside := state?_lt waiting
      change (world.setState number (.scheduled rest)).state? other = _
      rw [state?_put _ _ _ inside]
      by_cases same : other = number
      · simp [same, waiting, TaskState.freed, open']
      · simp [same]
    · rename_i shut
      by_cases same : other = number
      · simp [same, waiting, TaskState.freed, shut]
      · simp [same]
  · rename_i free
    by_cases same : other = number
    · subst same
      cases known : world.state? other with
      | none => simp
      | some state => cases state <;> simp_all [TaskState.freed]
    · simp [same]

theorem length_release (gate : String) :
    (release gate world number).tasks.length = world.tasks.length := by
  unfold release
  split
  · split
    · exact length_setState _ _ _
    · rfl
  · rfl

section Gates

variable (gate : String) (numbers : List Nat)

theorem framed_releaseAll : world.Framed (numbers.foldl (release gate) world) := by
  induction numbers generalizing world with
  | nil => rfl
  | cons number rest ih => exact (framed_release gate).trans ih

theorem length_releaseAll :
    (numbers.foldl (release gate) world).tasks.length = world.tasks.length := by
  induction numbers generalizing world with
  | nil => rfl
  | cons number rest ih => rw [List.foldl_cons, ih, length_release]

theorem state?_releaseAll : (numbers.foldl (release gate) world).state? number =
    if number ∈ numbers then (world.state? number).map (TaskState.freed gate)
    else world.state? number := by
  induction numbers generalizing world with
  | nil => simp
  | cons first rest ih =>
    have twice : TaskState.freed gate ∘ TaskState.freed gate = TaskState.freed gate := by
      funext state
      cases state with
      | waiting waited rest =>
        by_cases same : waited = gate <;> simp [TaskState.freed, same]
      | _ => rfl
    rw [List.foldl_cons, ih, state?_release]
    by_cases same : number = first
    · simp [same, twice]
    · simp [same]

theorem Calm.openGate (idle : world.current = none) : world.Calm (world.openGate gate) := by
  have framed : World.Framed { world with openGates := gate :: world.openGates }
      (world.openGate gate) := framed_releaseAll gate _
  have states (number : Nat) : (world.openGate gate).state? number =
      (world.state? number).map (TaskState.freed gate) := by
    rw [World.openGate, state?_releaseAll]
    split
    · rfl
    · rename_i beyond
      have beyond : world.tasks.length ≤ number := by simpa using beyond
      change world.state? number = _
      rw [state?_of_length_le beyond]
      rfl
  refine ⟨.of_states ?_ (length_releaseAll gate _) ?_ ?_, ?_⟩
  · rw [framed]
    rfl
  · rw [framed]
    exact idle
  · intro number after known
    rw [states, Option.map_eq_some_iff] at known
    obtain ⟨before, known, rfl⟩ := known
    refine ⟨before.rest, process?_of_state (by simp [busy, idle]) known, ?_⟩
    cases before with
    | waiting waited rest =>
      by_cases same : waited = gate
      · simpa [TaskState.freed, same, TaskState.rest] using .wait
      · simpa [TaskState.freed, same] using .refl _
    | _ => exact .refl _
  · intro number
    rw [outcome?, outcome?, states]
    cases known : world.state? number with
    | none => rfl
    | some state =>
      cases state with
      | waiting waited rest =>
        by_cases same : waited = gate <;> simp [TaskState.freed, same, TaskState.outcome?]
      | _ => rfl

end Gates

/-- The end of a task lets those go on that await it. -/
theorem Flows.finish {outcome : Outcome} (wired : world.Wired (some number))
    (running : world.current = some (.task number, .done outcome)) {next : World}
    (ended : next = ({ world with current := none } : World).finish number outcome) :
    world.Flows next := by
  obtain ⟨inside, _, _⟩ := wired.released number rfl
  have framed : World.Framed { world with current := none } next := ended ▸ framed_finish _ _
  refine .of_states ?_ ?_ ?_ ?_
  · rw [framed]
    rfl
  · rw [ended, length_finish]
  · rw [framed]
  · intro other after known
    by_cases same : other = number
    · subst same
      have settled : next.state? other = some (.done outcome) :=
        ended ▸ state?_finish_self _ _ inside
      rw [settled] at known
      cases known
      exact ⟨.done outcome, process?_of_running running, .refl _⟩
    · have apart : world.busy ≠ some other := by
        simp [busy, running, Ne.symm same]
      rw [ended, state?_finish _ _ same] at known
      split at known
      · rename_i member
        obtain ⟨⟨further, waits⟩, _⟩ := wired.awaited number other member
        have waits' : ({ world with current := none } : World).state? other =
          some (.awaiting number further) := waits
        rw [waits'] at known
        cases known
        refine ⟨_, process?_of_state apart waits, .await ?_⟩
        rw [ended]
        exact outcome?_finish_self _ _ inside
      · exact ⟨after.rest, process?_of_state apart known, .refl _⟩

theorem Calm.turn : world.Calm world.nextTurn :=
  .of_same rfl rfl rfl

theorem Calm.watch (task : Nat) (watcher : Watcher) : world.Calm (world.watch task watcher) := by
  have state (number : Nat) : (world.watch task watcher).state? number = world.state? number :=
    state?_watch _ _ _
  refine ⟨⟨rfl, by simp [World.watch], fun owner after left => ⟨after, ?_, .refl _⟩⟩, ?_⟩
  · rw [← left]
    cases owner with
    | caller => rfl
    | task number =>
      have same : (world.watch task watcher).standing number = world.standing number := by
        rw [standing, state, standing]
      simp only [process?, asleep?, same]
      rfl
  · simp only [outcome?, state, implies_true]

/-- A process stays where it waits. -/
theorem Calm.park {before : Process} (state : TaskState) (wired : world.Wired (some number))
    (running : world.current = some (.task number, before))
    (scene : next.scene = world.scene) (idle : next.current = none)
    (states : ∀ other, next.state? other =
      if other = number then some state else world.state? other)
    (length : next.tasks.length = world.tasks.length)
    (passes : before.Passes next state.rest) (unsettled : state.outcome? = none) :
    world.Calm next :=
  .of_put state scene idle (by simp [busy, running]) (process?_of_running running) states length
    passes (wired.released number rfl).2.1 unsettled

/-- A call from outside is given up where it would wait. -/
theorem Calm.stray {before : Process} {answer : Option Outcome}
    (running : world.current = some (.caller, before)) :
    world.Calm { world with current := none, answer := answer } := by
  refine ⟨.of_states rfl rfl rfl fun number after known => ?_, fun _ => rfl⟩
  exact ⟨after.rest, process?_of_state (by simp [busy, running]) known, .refl _⟩

theorem Stepped.handle {handle : Handle} {rest : List Handle} (wired : world.Wired none)
    (idle : world.current = none) (first : world.ready = handle :: rest) :
    world.Stepped ({ world with ready := rest }.handle handle) := by
  have silent : ∀ owner act, world.act? = some (owner, act) → act.Waits := by
    simp [act?, idle]
  have taken : world.Calm { world with ready := rest } := .of_same rfl rfl rfl
  cases handle with
  | notify callable args => exact .notices idle taken idle
  | fulfil number =>
    obtain ⟨task, process, known, ended⟩ := wired.fulfilled number (by
      simp [taken_fulfilments first, Handle.fulfilled?])
    have known' : { world with ready := rest }.state? number = some (.joining task process) := known
    simp only [World.handle, known']
    refine .passes silent (.of_put (.scheduled process) rfl idle (by simp [busy, idle])
      (process?_of_state (by simp [busy, idle]) known) ?_ ?_ (.join fun _ => ?_) ?_ rfl)
    · exact fun other => state?_put _ _ _ (state?_lt known)
    · exact length_setState _ _ _
    · obtain ⟨outcome, ended⟩ := Option.isSome_iff_exists.1 ended
      have apart : task ≠ number := by
        rintro rfl
        simp [outcome?, known, TaskState.outcome?] at ended
      have same : (World.schedule { world with ready := rest } number process).state? task =
          world.state? task := by
        rw [World.schedule]
        exact (state?_setState _ _ _).trans (if_neg apart)
      simp [outcome?, same, outcome?_eq_some.1 ended, TaskState.outcome?]
    · simp [outcome?, known, TaskState.outcome?]
  | resume number =>
    simp only [World.handle, World.resume]
    split
    · rename_i process cancelRequested watchers found
      have member : (⟨.scheduled process, cancelRequested, watchers⟩ : Task) ∈ world.tasks :=
        List.mem_of_getElem? found
      have uncancelled : cancelRequested = false := wired.uncancelled _ member
      have scheduled : world.state? number = some (.scheduled process) := by
        simp only [state?]
        exact congrArg (Option.map Task.state) found
      simp only [uncancelled, Bool.false_eq_true, if_false]
      refine .passes silent ⟨⟨rfl, rfl, fun other after left => ?_⟩, fun _ => rfl⟩
      rw [process?_proceed] at left
      rw [process?_of_idle idle]
      split at left
      · rename_i same
        cases left
        subst same
        exact ⟨_, asleep?_of_state scheduled, .refl _⟩
      · exact ⟨after, left, .refl _⟩
    · exact .passes silent taken

theorem step?_of_running {process : Process} (running : world.current = some (owner, process)) :
    world.step? = some ({ world with current := none }.runNode owner process) := by
  simp [step?, running]

theorem runNode_ask (request : Request) (branch : request.Answer → Process) :
    { world with current := none }.runNode owner (.ask request branch) =
      (world.respond request).2.proceed owner (branch (world.respond request).1) := by
  simp only [World.runNode, respond_set_current]
  rfl

theorem runNode_add (role : Role) (name : String) (body : Process)
    (branch : Except Fault Nat → Process) :
    { world with current := none }.runNode owner (.add role name body branch) =
      (world.addTask name body).2.proceed owner (branch (world.addTask name body).1) := by
  simp only [World.runNode, addTask_set_current]
  rfl

theorem Stepped.runNode {process : Process} (wired : world.Wired world.busy)
    (running : world.current = some (owner, process)) :
    world.Stepped ({ world with current := none }.runNode owner process) := by
  have act : world.act? = process.act?.map (owner, ·) := by
    simp [act?, running]
  have waits {found : Act} (mine : process.act? = some found) (waits : found.Waits) :
      ∀ owner act, world.act? = some (owner, act) → act.Waits := by
    intro owner other known
    rw [act, mine] at known
    cases known
    exact waits
  have free {number : Nat} (mine : owner = .task number) : world.Wired (some number) := by
    subst mine
    simpa [busy, running] using wired
  have goes {after : Process} {found : Act} (mine : process.act? = some found)
      (waiting : found.Waits) (passes : process.Passes (world.proceed owner after) after) :
      world.Stepped (World.proceed { world with current := none } owner after) :=
    .passes (waits mine waiting) (.of_proceed running passes)
  cases process with
  | done outcome =>
    cases owner with
    | caller => exact .passes (by simp [act, Process.act?]) (.stray running)
    | task number =>
      obtain ⟨inside, _, _⟩ := (free rfl).released number rfl
      refine .ends running (.finish (free rfl) running rfl) ?_ fun other apart => ?_
      · exact outcome?_finish_self _ _ inside
      · exact outcome?_finish _ _ apart
  | ask request branch =>
    rw [runNode_ask]
    exact .asks running
  | call role callable args branch => exact .calls running
  | leave role outcome rest => exact .leaves running
  | add role name body branch =>
    rw [runNode_add]
    exact .adds running
  | await task branch =>
    simp only [World.runNode]
    split
    · rename_i beyond
      exact goes rfl trivial (.awaitNone beyond)
    · rename_i inside
      split
      · rename_i outcome ended
        exact goes rfl trivial (.await ended)
      · rename_i unsettled
        cases owner with
        | caller => exact .passes (waits rfl trivial) (.stray running)
        | task number =>
          obtain ⟨present, _, _⟩ := (free rfl).released number rfl
          refine .passes (waits rfl trivial) (.park (.awaiting task branch) (free rfl) running rfl rfl
            (fun other => ?_) ?_ (.refl _) rfl)
          · simp only [World.suspend, state?_watch]
            exact state?_put _ _ _ present
          · simp [World.suspend, World.watch]
  | join task rest =>
    simp only [World.runNode]
    split
    · rename_i beyond
      refine goes rfl trivial (.join fun inside => ?_)
      exact absurd inside (Nat.not_lt_of_le beyond)
    · cases owner with
      | caller => exact .passes (waits rfl trivial) (.stray running)
      | task number =>
        obtain ⟨present, _, _⟩ := (free rfl).released number rfl
        simp only [World.suspend]
        split
        · refine .passes (waits rfl trivial) (.park (.joining task rest) (free rfl) running rfl rfl
            (fun other => ?_) ?_ (.refl _) rfl)
          · exact state?_put _ _ _ present
          · exact length_setState _ _ _
        · refine .passes (waits rfl trivial) (.park (.joining task rest) (free rfl) running rfl rfl
            (fun other => ?_) ?_ (.refl _) rfl)
          · rw [state?_watch]
            exact state?_put _ _ _ present
          · simp [World.watch]
  | wait gate rest =>
    simp only [World.runNode]
    split
    · exact goes rfl trivial .wait
    · cases owner with
      | caller => exact .passes (waits rfl trivial) (.stray running)
      | task number =>
        obtain ⟨present, _, _⟩ := (free rfl).released number rfl
        exact .passes (waits rfl trivial) (.park (.waiting gate rest) (free rfl) running rfl rfl
          (fun other => state?_put _ _ _ present) (length_setState _ _ _) (.refl _) rfl)
  | yield rest =>
    cases owner with
    | caller => exact .passes (waits rfl trivial) (.stray running)
    | task number =>
      obtain ⟨present, _, _⟩ := (free rfl).released number rfl
      exact .passes (waits rfl trivial) (.park (.scheduled rest) (free rfl) running rfl rfl
        (fun other => state?_put _ _ _ present) (length_setState _ _ _) .yield rfl)

theorem step?_stepped (wired : world.Wired world.busy) (moved : world.step? = some next) :
    world.Stepped next := by
  unfold step? at moved
  split at moved
  · rename_i owner process running
    obtain rfl := Option.some.inj moved
    exact .runNode wired running
  · rename_i handle rest idle first
    obtain rfl := Option.some.inj moved
    have none : world.busy = none := by simp [busy, idle]
    exact .handle (none ▸ wired) idle first
  · simp at moved

/-! ## A step seen from one process -/

/-- How a process came to what it is after a step. -/
inductive Evolves (world next : World) (owner : Owner) : Process → Prop
  | passes {before after : Process} (left : world.process? owner = some before)
      (passes : before.Passes next after)
      (waits : ∀ act, world.act? = some (owner, act) → act.Waits) :
      Evolves world next owner after
  | asks {request : Request} {branch : request.Answer → Process}
      (running : world.current = some (owner, .ask request branch)) :
      Evolves world next owner (branch (world.respond request).1)
  | calls {role : Role} {callable : Callable} {args : List Value} {branch : Outcome → Process}
      (running : world.current = some (owner, .call role callable args branch)) :
      Evolves world next owner ((callable.process role args).andThen branch)
  | leaves {role : Role} {outcome : Outcome} {rest : Process}
      (running : world.current = some (owner, .leave role outcome rest)) :
      Evolves world next owner rest
  | adds {role : Role} {name : String} {body : Process} {branch : Except Fault Nat → Process}
      (running : world.current = some (owner, .add role name body branch)) :
      Evolves world next owner (branch (world.addTask name body).1)
  | added {other : Owner} {role : Role} {name : String} {body : Process}
      (adds : world.act? = some (other, .add role name body)) (looping : world.looping = true)
      (new : owner = .task world.tasks.length) :
      Evolves world next owner (Recorder.task world.recorder.session world.recorder.tail name
        (.ofProcess body)).toProcess
  | stands {other : Owner} {role : Role} {previous : Nat}
      (recovers : world.act? = some (other, .ask (.recorder role .recover)))
      (tail : world.recorder.tail = some previous) (unsettled : world.outcome? previous = none)
      (looping : world.looping = true) (new : owner = .task world.tasks.length) :
      Evolves world next owner (Recorder.abandoned previous).toProcess
  | told {callable : Callable} {args : List Value} (caller : owner = .caller)
      (idle : world.current = none) :
      Evolves world next owner (.call .notice callable args .done)

theorem act?_of_running {process : Process} {act : Act}
    (running : world.current = some (owner, process)) (acts : process.act? = some act) :
    world.act? = some (owner, act) := by
  simp [act?, running, acts]

theorem running_of_act? {act : Act} (acts : world.act? = some (owner, act)) :
    ∃ process, world.current = some (owner, process) ∧ process.act? = some act := by
  unfold act? at acts
  cases current : world.current with
  | none => simp [current] at acts
  | some running =>
    obtain ⟨runner, process⟩ := running
    simp only [current, Option.bind_some, Option.map_eq_some_iff, Prod.mk.injEq] at acts
    obtain ⟨found, known, rfl, rfl⟩ := acts
    exact ⟨process, rfl, known⟩

theorem asleep?_spawn {other : Owner} (process : Process) :
    (world.spawn process).1.asleep? other =
      if other = .task world.tasks.length then some process else world.asleep? other := by
  cases other with
  | caller => rfl
  | task number =>
    simp only [asleep?, standing, state?_spawn, Owner.task.injEq]
    split <;> rfl

theorem process?_spawn {other : Owner} (wired : world.Wired world.busy) (process : Process) :
    (world.spawn process).1.process? other =
      if other = .task world.tasks.length then some process else world.process? other := by
  change (match world.current with
    | some (running, before) =>
      if running = other then some before else (world.spawn process).1.asleep? other
    | none => (world.spawn process).1.asleep? other) = _
  cases current : world.current with
  | none =>
    simp only [asleep?_spawn, process?, current]
  | some running =>
    obtain ⟨runner, before⟩ := running
    simp only [asleep?_spawn, process?, current]
    by_cases new : other = .task world.tasks.length
    · have apart : runner ≠ other := by
        rintro rfl
        have busy : world.busy = some world.tasks.length := by simp [World.busy, current, new]
        exact Nat.lt_irrefl _ (wired.released _ busy).1
      rw [if_neg apart, if_pos new, if_pos new]
    · simp [new]

theorem asleep?_congr (tasks : next.tasks = world.tasks) :
    next.asleep? owner = world.asleep? owner := by
  cases owner with
  | caller => rfl
  | task number => simp only [asleep?, standing, state?, tasks]

theorem Stepped.evolves {after : Process} (stepped : world.Stepped next)
    (left : next.process? owner = some after) : world.Evolves next owner after := by
  -- A process that is not the one at hand is where it was.
  have other {runner : Owner} {before : Process} {act : Act}
      (running : world.current = some (runner, before)) (acts : before.act? = some act)
      (apart : runner ≠ owner) (still : world.asleep? owner = some after) :
      world.Evolves next owner after := by
    rw [← process?_of_apart running apart] at still
    refine .passes still (.refl after) fun act known => ?_
    rw [act?_of_running running acts, Option.some.injEq, Prod.mk.injEq] at known
    exact absurd known.1 apart
  cases stepped with
  | @asks runner request branch running =>
    rw [process?_proceed] at left
    split at left
    · rename_i same
      cases left
      subst same
      exact .asks running
    · rename_i apart
      by_cases steady : ∀ role, request ≠ .recorder role .recover
      · rw [asleep?_congr (respond_rests request steady).tasks] at left
        exact other running rfl apart left
      · obtain ⟨role, rfl⟩ : ∃ role, request = .recorder role .recover := by
          simpa using steady
        rcases recover_cases world with ⟨rests, _⟩ | ⟨previous, tail, unsettled, looping, result⟩
        · exact other running rfl apart ((asleep?_congr rests.tasks).symm.trans left)
        · change world.recover.2.asleep? owner = some after at left
          rw [result] at left
          change (world.spawn _).1.asleep? owner = some after at left
          rw [asleep?_spawn] at left
          split at left
          · rename_i new
            cases left
            exact .stands (act?_of_running running rfl) tail unsettled looping new
          · exact other running rfl apart left
  | calls running =>
    rw [process?_proceed] at left
    split at left
    · rename_i same
      cases left
      subst same
      exact .calls running
    · rename_i apart
      exact other running rfl apart left
  | leaves running =>
    rw [process?_proceed] at left
    split at left
    · rename_i same
      cases left
      subst same
      exact .leaves running
    · rename_i apart
      exact other running rfl apart left
  | @adds runner role name body branch running =>
    rw [process?_proceed] at left
    split at left
    · rename_i same
      cases left
      subst same
      exact .adds running
    · rename_i apart
      rcases addTask_cases world name body with ⟨_, result⟩ | ⟨looping, result⟩
      · rw [result] at left
        exact other running rfl apart left
      · rw [result] at left
        change (world.spawn _).1.asleep? owner = some after at left
        rw [asleep?_spawn] at left
        split at left
        · rename_i new
          cases left
          exact .added (act?_of_running running rfl) looping new
        · exact other running rfl apart left
  | @ends number outcome _ running flows =>
    obtain ⟨before, known, passes⟩ := flows.passes owner after left
    refine .passes known passes fun act known => ?_
    simp [act?, running, Process.act?] at known
  | @notices callable args between idle calm quiet =>
    rw [process?_proceed] at left
    split at left
    · rename_i same
      cases left
      exact .told same.symm idle
    · rw [← process?_of_idle quiet] at left
      obtain ⟨before, known, passes⟩ := calm.passes owner after left
      exact .passes known (passes.congr rfl fun _ => rfl) (by simp [act?, idle])
  | passes waits calm =>
    obtain ⟨before, known, passes⟩ := calm.passes owner after left
    exact .passes known passes fun act known => waits owner act known

theorem Uncancelled.fair (uncancelled : world.Uncancelled) (request : Request) :
    request.Fair (world.respond request).1 := by
  cases request with
  | outcome task => exact uncancelled task
  | _ => trivial

/-- A process that keeps a law up to a stop goes on to keep it, if it is not at a stop. -/
theorem Evolves.keeps {law : Law} {stops : Process → Prop} {after : Process}
    (evolves : world.Evolves next owner after) (uncancelled : next.Uncancelled)
    (closed : law.Closed) (waits : ∀ act, act.Waits → law.assumes act)
    (known : ∀ act, world.act? = some (owner, act) → law.assumes act)
    (granted : ∀ request, world.act? = some (owner, .ask request) →
      law.grants request (world.respond request).1)
    (numbered : ∀ role name body, world.act? = some (owner, .add role name body) →
      world.looping = true → law.numbers world.tasks.length)
    (notices : ∀ callable args, owner = .caller → (Process.call .notice callable args .done).Keeps law stops)
    (old : owner ≠ .task world.tasks.length)
    (before : ∀ process, world.process? owner = some process → process.Keeps law stops)
    (active : ∀ process, world.process? owner = some process → stops process →
      ∀ act, process.act? = some act → ¬act.Waits ∧ world.act? ≠ some (owner, act)) :
    after.Keeps law stops := by
  have moves {process after : Process} {act : Act}
      (running : world.current = some (owner, process))
      (moves : Process.Next law act process after) : after.Keeps law stops := by
    have left := process?_of_running running
    have acts := act?_of_running running moves.act?
    refine (before process left).next (fun stopped => ?_) closed moves (known act acts)
    exact (active process left stopped act moves.act?).2 acts
  cases evolves with
  | @passes process _ left passes quiet =>
    exact passes.keeps uncancelled closed waits (before process left) fun stopped act acts =>
      (active process left stopped act acts).1
  | asks running => exact moves running (.ask (granted _ (act?_of_running running rfl)))
  | calls running => exact moves running .call
  | leaves running => exact moves running .leave
  | @adds role name body branch running =>
    refine moves running (.add fun number answer => ?_)
    rcases addTask_cases world name body with ⟨_, result⟩ | ⟨looping, result⟩
    · rw [result] at answer
      cases answer
    · rw [result] at answer
      cases answer
      exact numbered _ _ _ (act?_of_running running rfl) looping
  | added adds looping new => exact absurd new old
  | stands recovers tail unsettled looping new => exact absurd new old
  | told caller idle => exact notices _ _ caller

theorem Evolves.obeys {law : Law} {after : Process} (evolves : world.Evolves next owner after)
    (uncancelled : next.Uncancelled) (closed : law.Closed)
    (waits : ∀ act, act.Waits → law.assumes act)
    (known : ∀ act, world.act? = some (owner, act) → law.assumes act)
    (granted : ∀ request, world.act? = some (owner, .ask request) →
      law.grants request (world.respond request).1)
    (numbered : ∀ role name body, world.act? = some (owner, .add role name body) →
      world.looping = true → law.numbers world.tasks.length)
    (notices : ∀ callable args, law.allows (.call .notice callable args))
    (old : owner ≠ .task world.tasks.length)
    (before : ∀ process, world.process? owner = some process → process.Obeys law) :
    after.Obeys law :=
  evolves.keeps uncancelled closed waits known granted numbered
    (fun _ _ _ => .call (notices _ _) fun _ _ plain => .stop plain) old before
    fun _ _ ended act acts => absurd acts (by simp [ended.act?])

/-- The recorder as the next step leaves it. -/
def recorderAfter (world : World) : Recorder :=
  match world.act? with
  | some (_, .ask (.record session line)) => world.recorder.record session line
  | some (_, .ask (.recorder _ call)) => (world.operate call).2.recorder
  | some (_, .add _ name body) => (world.addTask name body).2.recorder
  | _ => world.recorder

theorem Flows.recorder (flows : world.Flows next) : next.recorder = world.recorder := by
  change next.scene.recorder = world.scene.recorder
  rw [flows.scene]

theorem respond_recorder (request : Request) (apart : ∀ session line, request ≠ .record session line)
    (apart' : ∀ role call, request ≠ .recorder role call) :
    (world.respond request).2.recorder = world.recorder := by
  cases request with
  | count instanceNumber amount =>
    simp only [World.respond, addToTotal]
    split <;> rfl
  | record session line => exact absurd rfl (apart session line)
  | recorder role call => exact absurd rfl (apart' role call)
  | _ => rfl

theorem Stepped.recorder (stepped : world.Stepped next) : next.recorder = world.recorderAfter := by
  cases stepped with
  | @asks owner request branch running =>
    have acts : world.act? = some (owner, .ask request) := act?_of_running running rfl
    unfold recorderAfter
    rw [acts]
    split
    · rename_i same
      cases same
      rfl
    · rename_i same
      cases same
      rfl
    · rename_i same
      cases same
    · rename_i apart apart' _
      refine respond_recorder request ?_ ?_
      · rintro session line rfl
        exact apart _ _ _ rfl
      · rintro role call rfl
        exact apart' _ _ _ rfl
  | calls running => simp [recorderAfter, act?, running, Process.act?, proceed]
  | leaves running => simp [recorderAfter, act?, running, Process.act?, proceed]
  | adds running => simp [recorderAfter, act?, running, Process.act?, proceed]
  | ends running flows => simpa [recorderAfter, act?, running, Process.act?] using flows.recorder
  | notices idle calm quiet =>
    simpa [recorderAfter, act?, idle, proceed] using calm.toFlows.recorder
  | passes waits calm =>
    unfold recorderAfter
    split
    · rename_i acts
      exact (waits _ _ acts).elim
    · rename_i acts
      exact (waits _ _ acts).elim
    · rename_i acts
      exact (waits _ _ acts).elim
    · exact calm.toFlows.recorder

theorem outcome?_spawn (process : Process) (number : Nat) :
    (world.spawn process).1.outcome? number = world.outcome? number := by
  rw [outcome?, outcome?, state?_spawn]
  split
  · rename_i new
    rw [new, state?_of_length_le (Nat.le_refl _)]
    rfl
  · rfl

theorem outcome?_respond (request : Request) (number : Nat) :
    (world.respond request).2.outcome? number = world.outcome? number := by
  by_cases steady : ∀ role, request ≠ .recorder role .recover
  · exact (respond_rests request steady).outcome? number
  · obtain ⟨role, rfl⟩ : ∃ role, request = .recorder role .recover := by
      simpa using steady
    change world.recover.2.outcome? number = _
    rcases recover_cases world with ⟨rests, _⟩ | ⟨previous, _, _, _, result⟩
    · exact rests.outcome? number
    · rw [result]
      exact outcome?_spawn _ number

theorem outcome?_addTask (name : String) (body : Process) (number : Nat) :
    (world.addTask name body).2.outcome? number = world.outcome? number := by
  rcases addTask_cases world name body with ⟨_, result⟩ | ⟨_, result⟩
  · rw [result]
  · rw [result]
    exact outcome?_spawn _ number

/-- A step ends at most the task at hand. -/
theorem Stepped.outcome? (stepped : world.Stepped next) (number : Nat) :
    next.outcome? number = world.outcome? number ∨ ∃ outcome,
      world.current = some (.task number, .done outcome) ∧ next.outcome? number = some outcome := by
  cases stepped with
  | asks running => exact .inl (outcome?_respond _ number)
  | calls running => exact .inl rfl
  | leaves running => exact .inl rfl
  | adds running => exact .inl (outcome?_addTask _ _ number)
  | @ends ending outcome _ running flows ended others =>
    by_cases same : number = ending
    · subst same
      exact .inr ⟨outcome, running, ended⟩
    · exact .inl (others number same)
  | notices idle calm quiet => exact .inl (calm.outcomes number)
  | passes waits calm => exact .inl (calm.outcomes number)

theorem Stepped.settled {outcome : Outcome} (stepped : world.Stepped next)
    (wired : world.Wired world.busy) (ended : world.outcome? number = some outcome) :
    next.outcome? number = some outcome := by
  rcases stepped.outcome? number with same | ⟨other, running, _⟩
  · rw [same, ended]
  · have busy : world.busy = some number := by simp [World.busy, running]
    rw [(wired.released number busy).2.1] at ended
    cases ended

theorem length_respond (request : Request) :
    world.tasks.length ≤ (world.respond request).2.tasks.length := by
  by_cases steady : ∀ role, request ≠ .recorder role .recover
  · exact Nat.le_of_eq (congrArg _ (respond_rests request steady).tasks.symm)
  · obtain ⟨role, rfl⟩ : ∃ role, request = .recorder role .recover := by
      simpa using steady
    change _ ≤ world.recover.2.tasks.length
    rcases recover_cases world with ⟨rests, _⟩ | ⟨previous, _, _, _, result⟩
    · exact Nat.le_of_eq (congrArg _ rests.tasks.symm)
    · simp [result, World.spawn]

theorem Stepped.length (stepped : world.Stepped next) :
    world.tasks.length ≤ next.tasks.length := by
  cases stepped with
  | asks running => exact length_respond _
  | calls running => exact Nat.le_refl _
  | leaves running => exact Nat.le_refl _
  | @adds _ role name body _ running =>
    change _ ≤ (world.addTask name body).2.tasks.length
    rcases addTask_cases world name body with ⟨_, result⟩ | ⟨_, result⟩
    · simp [result]
    · simp [result, World.spawn]
  | ends running flows => exact Nat.le_of_eq flows.length.symm
  | notices idle calm quiet => exact Nat.le_of_eq calm.length.symm
  | passes waits calm => exact Nat.le_of_eq calm.length.symm

theorem Between.calm_or {outside : World → World → Prop} (between : world.Between outside next) :
    world.Calm next ∨ outside world next := by
  cases between with
  | turn => exact .inl .turn
  | gate gate idle => exact .inl (.openGate gate idle)
  | outside comes => exact .inr comes

end Kinds

section Runs

variable {outside : World → World → Prop} {start world next : World} {passed : History}

theorem Wired.between (wired : world.Wired world.busy) (between : world.Between outside next)
    (kept : outside world next → next.Wired next.busy) : next.Wired next.busy := by
  cases between with
  | turn => exact wired.turn
  | gate gate idle =>
    have none : world.busy = none := by simp [busy, idle]
    have framed : World.Framed { world with openGates := gate :: world.openGates }
      (world.openGate gate) := framed_releaseAll gate _
    have quiet : (world.openGate gate).busy = .none := by
      rw [framed]
      exact none
    rw [quiet]
    exact (none ▸ wired).openGate gate
  | outside comes => exact kept comes

theorem Intervention.wired {brings : Process → Prop} (comes : Intervention brings world next)
    (wired : world.Wired world.busy) : next.Wired next.busy := by
  cases comes with
  | enters brought idle =>
    have none : world.busy = none := by simp [busy, idle]
    exact (none ▸ wired).congr rfl rfl
  | spawns brought => exact wired.spawn _
  | watches task callable => exact wired.watch_notify task callable
  | alters apart =>
    rw [apart]
    exact wired.congr rfl rfl

/-- Whatever comes from outside that keeps the wiring, a run keeps it. -/
theorem Run.wired (run : Run outside start passed world) (first : start.Wired start.busy)
    (kept : ∀ world next, outside world next → world.Wired world.busy → next.Wired next.busy) :
    world.Wired world.busy := by
  induction run with
  | refl => exact first
  | step _ moved ih => exact ih.step moved
  | between _ between ih => exact ih.between between fun comes => kept _ _ comes ih

theorem Between.mono {outside' : World → World → Prop} (between : world.Between outside next)
    (more : outside world next → outside' world next) : world.Between outside' next := by
  cases between with
  | turn => exact .turn
  | gate gate idle => exact .gate gate idle
  | outside comes => exact .outside (more comes)

theorem Run.mono {outside' : World → World → Prop} (run : Run outside start passed world)
    (more : ∀ world next, outside world next → outside' world next) :
    Run outside' start passed world := by
  induction run with
  | refl => exact .refl
  | step _ moved ih => exact ih.step moved
  | between _ between ih => exact ih.between (between.mono (more _ _))

theorem Run.trans {later : History} {last : World} (run : Run outside start passed world)
    (further : Run outside world later last) : Run outside start (passed ++ later) last := by
  induction further with
  | refl => simpa using run
  | step _ moved ih => simpa [← List.append_assoc] using ih.step moved
  | between _ between ih => exact ih.between between

/-! ## The functions that run the loop make runs -/

theorem Run.runTurn (bound : Nat) (world : World) :
    ∃ passed, Run outside world passed (world.runTurn bound) := by
  induction bound generalizing world with
  | zero => exact ⟨[], .refl⟩
  | succ bound ih =>
    unfold World.runTurn
    split
    · rename_i next moved
      obtain ⟨passed, run⟩ := ih next
      exact ⟨_, (Run.refl.step moved).trans run⟩
    · exact ⟨[], .refl⟩

theorem Run.nextTurn (world : World) (bound : Nat) :
    ∃ passed, Run outside world passed (world.nextTurn.runTurn bound) := by
  obtain ⟨passed, run⟩ : ∃ passed, Run outside world.nextTurn passed _ :=
    Run.runTurn bound world.nextTurn
  exact ⟨_, (Run.refl.between .turn).trans run⟩

theorem Run.perform {brings : Process → Prop} {α : Type} (world : World)
    (idle : world.current = none) (program : Program α) (answer : α → Value)
    (brought : brings (program fun outcome => .done (outcome.map answer))) :
    ∃ passed, Run (Intervention brings) world passed (world.perform program answer).2 := by
  have entered : World.Between (Intervention brings) world { world with
      current := some (.caller, program fun outcome => .done (outcome.map answer))
      answer := none } := .outside (.enters brought idle)
  obtain ⟨passed, run⟩ : ∃ passed, Run (Intervention brings) _ passed _ :=
    Run.runTurn World.limit { world with
      current := some (.caller, program fun outcome => .done (outcome.map answer))
      answer := none }
  exact ⟨_, (Run.refl.between entered).trans run⟩

theorem Run.settle (world : World) : ∃ passed, Run outside world passed world.settle := by
  unfold World.settle
  induction World.limit generalizing world with
  | zero => exact ⟨[], .refl⟩
  | succ bound ih =>
    unfold World.settleWithin
    split
    · exact ⟨[], .refl⟩
    · obtain ⟨passed, run⟩ : ∃ passed, Run outside world passed _ :=
        Run.nextTurn world World.limit
      obtain ⟨later, further⟩ := ih (world.nextTurn.runTurn World.limit)
      exact ⟨_, run.trans further⟩

/-- A loop that is left to itself, for at most so many steps and turns: the worlds that it steps
from, and the last. -/
def play : Nat → World → History × World
  | 0, world => ([], world)
  | bound + 1, world =>
    match world.step? with
    | some next => (world :: (play bound next).1, (play bound next).2)
    | none => if world.soon.isEmpty then ([], world) else play bound world.nextTurn

theorem Run.play (bound : Nat) (world : World) :
    Run outside world (play bound world).1 (play bound world).2 := by
  induction bound generalizing world with
  | zero => exact .refl
  | succ bound ih =>
    unfold World.play
    split
    · rename_i next moved
      exact (Run.refl.step moved).trans (ih next)
    · split
      · exact .refl
      · exact (Run.refl.between .turn).trans (ih world.nextTurn)

end Runs

end World

end FeatureRunner
