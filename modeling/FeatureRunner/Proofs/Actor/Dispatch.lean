import FeatureRunner.Proofs.Actor.Doing

/-!
How a dispatch goes. A process that does not wait is run to its end without a break. So a dispatch
that is at hand tells of its beginning and then adds its three tasks, each right behind the other; or
it raises before it adds the first.

Main statement: `dispatch_cases`.
-/

namespace FeatureRunner
open FeatureRunner.World

/-- The law that nothing waits. -/
def straight : Law where
  allows
    | .call _ callable _ => callable.suspends = false
    | act => ¬act.Waits
  assumes _ := True
  covers := False

theorem straight_listeners : straight.AdmitsListeners where
  collects _ _ _ _ _ _ _ _ := id
  calls _ _ steady := steady
  leaves _ := id

theorem straight_scripts (role : Role) : straight.AdmitsScripts role false where
  toAdmitsListeners := straight_listeners
  asks _ _ := id
  adds _ _ _ := id
  works covers := covers.elim
  awaits := nofun
  waits := nofun

theorem straight_plain : straight.Plain where
  closed role callable args steady := by
    have scripts := straight_scripts role
    rw [← show callable.suspends = false from steady] at scripts
    exact callable.process_obeys scripts args
  assumes _ := trivial
  grants _ _ fair := fair
  numbers _ := trivial

theorem not_waits_of_straight {act : Act} (allowed : straight.allows act) : ¬act.Waits := by
  cases act with
  | call => exact id
  | _ => exact allowed

/-! ## Without a break -/

/-- What may come from outside: processes that write nothing to the trace. While a process is at
hand, the loop stays. -/
def courteously (world next : World) : Prop :=
  quietly world next ∧ (world.current ≠ none → next.looping = world.looping)

/-- A process of an owner is at hand. -/
def World.AtHand (owner : Owner) (world : World) : Prop :=
  ∃ process, world.current = some (owner, process)

section Stretches

variable {clock : Calendar.Moment} {owner : Owner} {before passed : History}
  {start world next : World} {process : Process}

theorem World.Run.quiet (run : Run courteously start passed world) : Run quietly start passed world :=
  run.mono fun _ _ comes => comes.1

/-- Without a step, what is at hand stays. -/
theorem World.Run.rests (run : Run courteously start [] world) (busy : start.current ≠ none) :
    world.current = start.current ∧ world.recorder = start.recorder ∧
      world.looping = start.looping := by
  generalize none : ([] : History) = passed at run
  induction run with
  | refl => exact ⟨rfl, rfl, rfl⟩
  | step => simp at none
  | @between _ world next _ between ih =>
    obtain ⟨current, recorder, looping⟩ := ih none
    have still : world.current ≠ Option.none := current ▸ busy
    have looping' := looping_of_between between fun comes => comes.2 still
    have between := between.mono And.left
    exact ⟨(between.current still).trans current, between.recorder.trans recorder,
      looping'.trans looping⟩

/-- What is at hand is gone on with in the next step. -/
theorem World.goes_on {act : Act} (running : world.current = some (owner, process))
    (acts : process.act? = some act) (active : ¬act.Waits) (uncancelled : world.Uncancelled)
    (moved : world.step? = some next) :
    ∃ after, next.current = some (owner, after) ∧ Process.Next mute act process after := by
  rw [step?_of_running running, Option.some.injEq] at moved
  subst moved
  cases process with
  | done => cases acts
  | ask request branch =>
    cases acts
    rw [runNode_ask]
    exact ⟨_, rfl, .ask (uncancelled.fair request)⟩
  | call =>
    cases acts
    exact ⟨_, rfl, .call⟩
  | leave =>
    cases acts
    exact ⟨_, rfl, .leave⟩
  | add =>
    cases acts
    rw [runNode_add]
    exact ⟨_, rfl, .add fun _ _ => trivial⟩
  | await | join | wait | yield =>
    cases acts
    exact absurd trivial active

theorem act?_andThen {act : Act} (acts : process.act? = some act) (further : Outcome → Process) :
    (process.andThen further).act? = some act := by
  cases process with
  | done => cases acts
  | _ => exact acts

/-- A process has been run to its end without a break, and what follows it is at hand. -/
structure Stretch (owner : Owner) (process : Process) (further : Outcome → Process) (start : World)
    (told : History) (back : World) (outcome : Outcome) : Prop where
  run : Run courteously start told back
  held : ∀ past ∈ told, past.AtHand owner
  performs : process.Performs (told.deeds owner) (.done outcome)
  back : back.current = some (owner, further outcome)

/-- A process that does not wait is at hand to its end. -/
theorem stretch_cases {further : Outcome → Process}
    (earlier : Run quietly (World.initial clock) before start)
    (run : Run courteously start passed world)
    (running : start.current = some (owner, process.andThen further))
    (obeys : process.Obeys straight) :
    (world.AtHand owner ∧ ∀ past ∈ passed, past.AtHand owner) ∨
    ∃ told rest back outcome, passed = told ++ rest ∧ Uncancelled outcome ∧
      Stretch owner process further start told back outcome ∧ Run courteously back rest world := by
  have busy : start.current ≠ none := by simp [running]
  induction passed generalizing before start process with
  | nil =>
    cases process with
    | done outcome =>
      cases obeys with
      | stop plain =>
        exact .inr ⟨[], [], start, outcome, rfl, plain, ⟨.refl, by simp, .refl, running⟩, run⟩
    | _ => exact .inl ⟨⟨_, (run.rests busy).1.trans running⟩, by simp⟩
  | cons first rest ih =>
    rcases acts : process.act? with _ | act
    · obtain ⟨outcome, rfl⟩ : ∃ outcome, process = .done outcome := by
        cases process with
        | done outcome => exact ⟨outcome, rfl⟩
        | _ => cases acts
      cases obeys with
      | stop plain =>
        exact .inr ⟨[], _, start, outcome, rfl, plain, ⟨.refl, by simp, .refl, running⟩, run⟩
    · have active := not_waits_of_straight (obeys.allowed acts)
      have parts : Run courteously start ([] ++ first :: rest) world := run
      obtain ⟨begins, next, moved, further'⟩ := parts.split
      have earlier' := earlier.trans begins.quiet
      rw [List.append_nil] at earlier'
      have running' := (begins.rests busy).1.trans running
      have uncancelled := (Serial.of_run earlier').uncancelled
      obtain ⟨after, current, moves⟩ :=
        World.goes_on running' (act?_andThen acts _) active uncancelled moved
      have held : first.AtHand owner := ⟨_, running'⟩
      rcases moves.of_andThen with ⟨outcome, rfl, _⟩ | ⟨left, goes, rfl⟩
      · cases acts
      have obeys' := obeys.next straight_plain.closed (goes.plain straight_plain) trivial
      rcases ih (earlier'.step moved) further' current obeys' (by simp [current]) with
        ⟨inside, all⟩ | ⟨told, rest, back, outcome, rfl, plain, stretch, onward⟩
      · exact .inl ⟨inside, List.forall_mem_cons.2 ⟨held, all⟩⟩
      · refine .inr ⟨first :: told, rest, back, outcome, rfl, plain, ⟨?_, ?_, ?_, stretch.back⟩, onward⟩
        · exact (begins.step moved).trans stretch.run
        · exact List.forall_mem_cons.2 ⟨held, stretch.held⟩
        · have deed : History.deeds [first] owner = [act] := by
            simp [History.deeds, World.deed?_of_act? (act?_of_running running' (act?_andThen acts _)),
              active]
          rw [← List.singleton_append, History.deeds_append, deed]
          exact (Process.Performs.acts .refl goes active).trans stretch.performs

end Stretches

/-! ## Adding -/

/-- A process that is at hand adds a task to the chain in a world, and goes on. -/
structure World.Adds (owner : Owner) (role : Role) (name : String) (body : Process)
    (start adding next : World) (link : Link) : Prop where
  run : Run courteously start [adding] next
  acts : adding.act? = some (owner, .add role name body)
  made : adding.link? = some link
  work : link.work = some (name, body)
  session : link.session = start.recorder.session
  previous : link.previous = start.recorder.tail
  looping : next.looping = true
  session' : next.recorder.session = link.session
  tail : next.recorder.tail = some link.number

theorem World.Adds.held {owner : Owner} {role : Role} {name : String} {body : Process}
    {start adding next : World} {link : Link} (adds : World.Adds owner role name body start adding next link) :
    adding.AtHand owner := by
  obtain ⟨process, running, _⟩ := running_of_act? adds.acts
  exact ⟨process, running⟩

section Adding

variable {owner : Owner} {role : Role} {name : String} {body : Process}
  {branch : Except Fault Nat → Process} {passed : History} {start world : World}

theorem add_cases (run : Run courteously start passed world)
    (running : start.current = some (owner, .add role name body branch)) :
    (passed = [] ∧ world.AtHand owner) ∨
    ∃ adding next rest, passed = adding :: rest ∧ Run courteously next rest world ∧
      (start.looping = false ∧ adding.act? = some (owner, .add role name body) ∧
          adding.looping = false ∧ next.current = some (owner, branch (.error .noRunningLoop)) ∨
        ∃ link, World.Adds owner role name body start adding next link ∧
          next.current = some (owner, branch (.ok link.number))) := by
  have busy : start.current ≠ none := by simp [running]
  cases passed with
  | nil => exact .inl ⟨rfl, _, (run.rests busy).1.trans running⟩
  | cons adding rest =>
    have parts : Run courteously start ([] ++ adding :: rest) world := run
    obtain ⟨begins, next, moved, further⟩ := parts.split
    obtain ⟨current, recorder, looping⟩ := begins.rests busy
    have running' := current.trans running
    have acts : adding.act? = some (owner, .add role name body) := act?_of_running running' rfl
    refine .inr ⟨adding, next, rest, rfl, further, ?_⟩
    have reaches : Run courteously start [adding] next := begins.step moved
    rw [step?_of_running running', runNode_add, Option.some.injEq] at moved
    subst moved
    rcases addTask_cases adding name body with ⟨stopped, result⟩ | ⟨loops, result⟩
    · refine .inl ⟨looping.symm.trans stopped, acts, stopped, ?_⟩
      simp [result, World.proceed]
    · refine .inr ⟨⟨adding.tasks.length, adding.recorder.session, adding.recorder.tail,
        some (name, body)⟩, ⟨reaches, acts, by simp [World.link?, acts, loops], rfl, ?_, ?_, ?_, ?_, ?_⟩, ?_⟩
      · rw [recorder]
      · rw [recorder]
      · simp [result, World.proceed, World.spawn, loops]
      · simp [result, World.proceed]
      · simp [result, World.proceed]
      · simp [result, World.proceed]

end Adding

/-! ## Dispatches -/

namespace Actor

/-- Tells of the success of an action. -/
def passing (step : Value) : Program Value := do
  emitFor .actor stepPassed [step]
  return .null

/-- Adds the tasks of a dispatch. -/
def addTasks (role : Role) (line : String) (step : Value) (action : Program Value) : Program Nat := do
  let performed ← Program.addFor role line (performStep step action)
  let _ ← Program.addFor role "step passed" (passing step)
  Program.addFor role "return result" (Recorder.resultOf performed)

/-- Tells of the beginning of a dispatch. -/
def telling (step : Value) : Process :=
  emitFor .actor stepStarted [step] fun result => .done (result.map fun _ => .null)

theorem telling_obeys (step : Value) : (telling step).Obeys straight := by
  have obeys : (emitFor .actor stepStarted [step]).Obeys straight :=
    emitFor_obeys straight_listeners id
  exact obeys fun result plain => .stop (plain.map _)

variable {role : Role} {name line : String} {args : List Value} {action : Program Value}

theorem dispatch_of_error {fault : Fault} (failed : Actor.line name args = .error fault)
    (next : Except Failure Nat → Process) :
    dispatch role name args action next = next (.error (.fault fault)) := by
  unfold dispatch
  rw [failed]
  rfl

theorem dispatch_of_ok (known : Actor.line name args = .ok line)
    (next : Except Failure Nat → Process) :
    dispatch role name args action next = (telling (stepRecord name args)).andThen fun
      | .ok _ => addTasks role line (stepRecord name args) action next
      | .error failure => next (.error failure) := by
  rw [telling, emitFor_uniform]
  unfold dispatch
  rw [known]
  refine congrArg (emitFor .actor stepStarted [stepRecord name args]) (funext fun result => ?_)
  cases result <;> rfl

/-- Listeners have been told of a beginning: the emission comes first, and the rest is up to them. A
failure is that of the last listener that has been called. -/
theorem told_of_telling {step : Value} {deeds : List Act} {outcome : Outcome}
    (performs : (telling step).Performs deeds (.done outcome)) :
    ∃ heard, deeds = .ask (.subscribers .actor stepStarted [step]) :: heard ∧
      ∀ failure, outcome = .error failure →
        heard.getLast? = some (.leave .listener (.error failure)) := by
  obtain ⟨result, _, rest, ⟨heard, rfl, _, _, last⟩, ending, rfl⟩ :=
    emitFor_does [step] straight_listeners straight_plain (fun _ => id) .actor stepStarted performs
  obtain ⟨rfl, same⟩ := ending.of_done
  refine ⟨heard, by simp, ?_⟩
  rintro failure rfl
  cases result with
  | ok value => cases same
  | error other =>
    cases same
    exact last _ rfl

end Actor

open Actor

/-- A dispatch has told of its beginning: the emission comes first, and the rest is up to the
listeners. -/
structure Told (owner : Owner) (step : Value) (start : World) (told : History) (heard : List Act)
    (back : World) : Prop where
  run : Run courteously start told back
  held : ∀ past ∈ told, past.AtHand owner
  emits : told.deeds owner = .ask (.subscribers .actor stepStarted [step]) :: heard

/-- A dispatch has come back with a fault, and has added nothing: its arguments have no text, a
listener of its beginning has failed, or there is no loop. -/
inductive Raised (owner : Owner) (name : String) (args : List Value)
    (next : Except Failure Nat → Process) (start : World) (passed : History) (world : World) : Prop
  | arguments {fault : Fault} (failed : line name args = .error fault)
      (comes : start.current = some (owner, next (.error (.fault fault))))
  | listener {before rest : History} {heard : List Act} {back : World} {fault : Fault}
      (split : passed = before ++ rest)
      (told : Told owner (stepRecord name args) start before heard back)
      (fails : heard.getLast? = some (.leave .listener (.error (.fault fault))))
      (comes : back.current = some (owner, next (.error (.fault fault))))
      (further : Run courteously back rest world)
  | stopped {before rest : History} {heard : List Act} {middle adding back : World}
      (split : passed = before ++ adding :: rest)
      (told : Told owner (stepRecord name args) start before heard middle)
      (tries : ∃ role line body, adding.act? = some (owner, .add role line body))
      (stops : adding.looping = false)
      (comes : back.current = some (owner, next (.error (.fault .noRunningLoop))))
      (further : Run courteously back rest world)

/-- A dispatch has come back with a task: it has told of its beginning, and then added three tasks,
one right behind the other. -/
inductive Returned (owner : Owner) (role : Role) (name : String) (args : List Value)
    (action : Program Value) (next : Except Failure Nat → Process) (start : World) (passed : History)
    (world : World) (line : String) (first second third : Link) : Prop
  | of {before rest : History} {heard : List Act} {middle one two three after after' back : World}
      (known : Actor.line name args = .ok line) (split : passed = before ++ one :: two :: three :: rest)
      (told : Told owner (stepRecord name args) start before heard middle)
      (performs : World.Adds owner role line
        (performStep (stepRecord name args) action).toProcess middle one after first)
      (passes : World.Adds owner role "step passed"
        (passing (stepRecord name args)).toProcess after two after' second)
      (results : World.Adds owner role "return result"
        (Recorder.resultOf first.number).toProcess after' three back third)
      (comes : back.current = some (owner, next (.ok third.number)))
      (further : Run courteously back rest world)

section Dispatches

variable {clock : Calendar.Moment} {owner : Owner} {role : Role} {name : String} {args : List Value}
  {action : Program Value} {next : Except Failure Nat → Process} {before passed : History}
  {start world : World}

/-- A dispatch that is at hand is still at hand, or it has come back with a fault and has added
nothing, or with the last of its three tasks. -/
theorem dispatch_cases (earlier : Run quietly (World.initial clock) before start)
    (running : start.current = some (owner, dispatch role name args action next))
    (run : Run courteously start passed world) :
    (world.AtHand owner ∧ ∀ past ∈ passed, past.AtHand owner) ∨
    Raised owner name args next start passed world ∨
    ∃ line first second third,
      Returned owner role name args action next start passed world line first second third := by
  rcases known : line name args with fault | line
  · rw [dispatch_of_error known] at running
    exact .inr (.inl (.arguments known running))
  rw [dispatch_of_ok known] at running
  rcases stretch_cases earlier run running (telling_obeys _) with
    inside | ⟨before, rest, middle, outcome, rfl, plain, stretch, further⟩
  · exact .inl inside
  obtain ⟨heard, emits, fails⟩ := told_of_telling stretch.performs
  have told : Told owner (stepRecord name args) start before heard middle :=
    ⟨stretch.run, stretch.held, emits⟩
  match outcome with
  | .error .cancelled => exact absurd rfl plain
  | .error (.fault fault) =>
    exact .inr (.inl (.listener rfl told (fails _ rfl) stretch.back further))
  | .ok value =>
    -- From here on the dispatch is at hand until it has added its last task.
    have inside {adds rest : History} (split : rest = adds) (here : world.AtHand owner)
        (held : ∀ past ∈ adds, past.AtHand owner) :
        world.AtHand owner ∧ ∀ past ∈ before ++ rest, past.AtHand owner :=
      ⟨here, List.forall_mem_append.2 ⟨stretch.held, split ▸ held⟩⟩
    rcases add_cases further stretch.back with
      ⟨none, here⟩ | ⟨one, after, rest', rfl, further', made⟩
    · exact .inl (inside none here (by simp))
    rcases made with ⟨_, tries, stops, comes⟩ | ⟨first, adds, comes⟩
    · exact .inr (.inl (.stopped rfl told ⟨_, _, _, tries⟩ stops comes further'))
    have held := adds.held
    rcases add_cases further' comes with ⟨none, here⟩ | ⟨two, after', rest, rfl, further'', made⟩
    · exact .inl (inside (congrArg _ none) here (by simpa using held))
    rcases made with ⟨still, _⟩ | ⟨second, adds', comes⟩
    · simp [adds.looping] at still
    have held' := adds'.held
    rcases add_cases further'' comes with ⟨none, here⟩ | ⟨three, back, rest, rfl, further, made⟩
    · exact .inl (inside (congrArg _ (congrArg _ none)) here (by simpa using ⟨held, held'⟩))
    rcases made with ⟨still, _⟩ | ⟨third, adds'', comes⟩
    · simp [adds'.looping] at still
    exact .inr (.inr ⟨line, first, second, third, .of known rfl told adds adds' adds'' comes further⟩)

end Dispatches

end FeatureRunner
