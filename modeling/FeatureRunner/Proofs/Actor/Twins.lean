import FeatureRunner.Proofs.Actor.Resolution
import Mathlib.Data.List.Forall2

/-!
Two loops side by side that differ in how one dispatch is worded: as a method of the actor in the one, as
a named action in the other. Their processes do the same node by node, but for the line of the dispatch,
what listeners are told of it, and one more search when no helper has the method. So a step of the one
is one or two steps of the other, and the worlds stay the same but for the trace.

Main statement: `World.Twin.run`.
-/

namespace FeatureRunner
open FeatureRunner.World

/-- The wording of a dispatch: a method of the actor is asked for with arguments, or the named action of
that name. Of either, listeners may log what is alike. -/
structure Wording where
  name : String
  args : List Value
  alike : Value → Value → Prop
  refl : ∀ value, alike value value

namespace Wording

/-- What listeners are told of the method. -/
def method (wording : Wording) : Value := Actor.stepRecord wording.name wording.args

/-- What listeners are told of the named action. -/
def action (wording : Wording) : Value :=
  Actor.stepRecord "do" (.text wording.name :: wording.args)

/-- A line as it is, or the line of the method in place of which that of the named action stands. -/
def Rewords (wording : Wording) (own other : String) : Prop :=
  own = other ∨ Actor.line wording.name wording.args = .ok own ∧
    Actor.line "do" (.text wording.name :: wording.args) = .ok other

end Wording

/-! ## Processes -/

/-- Two processes do the same but for the wording of a dispatch. -/
inductive Process.Twin (wording : Wording) : Process → Process → Prop
  | done (outcome : Outcome) : Twin wording (.done outcome) (.done outcome)
  | ask {request : Request} {branch branch' : request.Answer → Process}
      (further : ∀ answer, Twin wording (branch answer) (branch' answer)) :
      Twin wording (.ask request branch) (.ask request branch')
  /-- A task of the dispatch writes its line. -/
  | record {session : Nat} {own other : String}
      {branch : (Request.record session own).Answer → Process}
      {branch' : (Request.record session other).Answer → Process}
      (words : wording.Rewords own other) (further : Twin wording (branch ()) (branch' ())) :
      Twin wording (.ask (.record session own) branch) (.ask (.record session other) branch')
  /-- A listener logs what it was told. -/
  | note {number : Nat} {value value' : Value}
      {branch : (Request.note number value).Answer → Process}
      {branch' : (Request.note number value').Answer → Process}
      (alike : wording.alike value value') (further : Twin wording (branch ()) (branch' ())) :
      Twin wording (.ask (.note number value) branch) (.ask (.note number value') branch')
  /-- Those are asked for who are told of the dispatch. -/
  | tell {event : String} {more : List Value}
      {branch : (Request.subscribers .actor event (wording.method :: more)).Answer → Process}
      {branch' : (Request.subscribers .actor event (wording.action :: more)).Answer → Process}
      (further : ∀ told : List Subscriber,
        (∀ subscriber ∈ told, ∃ body, subscriber = .callable body) →
          Twin wording (branch told) (branch' told)) :
      Twin wording (.ask (.subscribers .actor event (wording.method :: more)) branch)
        (.ask (.subscribers .actor event (wording.action :: more)) branch')
  /-- The named action searches once more when no helper has the method. If the second search fails as
  well, both go on alike. -/
  | search {branch branch' : (Request.method wording.name).Answer → Process}
      {rest : (Request.method "do").Answer → Process}
      (found : ∀ method, Twin wording (branch (some method)) (branch' (some method)))
      (again : branch' none = .ask (.method "do") rest)
      (missing : Twin wording (branch none) (rest none)) :
      Twin wording (.ask (.method wording.name) branch) (.ask (.method wording.name) branch')
  | call {role : Role} {callable : Callable} {given : List Value} {branch branch' : Outcome → Process}
      (further : ∀ outcome, Twin wording (branch outcome) (branch' outcome)) :
      Twin wording (.call role callable given branch) (.call role callable given branch')
  /-- A listener is told of the dispatch. -/
  | hear {callable : Callable} {more : List Value} {branch branch' : Outcome → Process}
      (further : ∀ outcome, Twin wording (branch outcome) (branch' outcome)) :
      Twin wording (.call .listener callable (wording.method :: more) branch)
        (.call .listener callable (wording.action :: more) branch')
  | leave {role : Role} {outcome : Outcome} {rest rest' : Process}
      (further : Twin wording rest rest') :
      Twin wording (.leave role outcome rest) (.leave role outcome rest')
  | add {role : Role} {own other : String} {body body' : Process}
      {branch branch' : Except Fault Nat → Process} (words : wording.Rewords own other)
      (work : Twin wording body body')
      (further : ∀ answer, Twin wording (branch answer) (branch' answer)) :
      Twin wording (.add role own body branch) (.add role other body' branch')
  | await {task : Nat} {branch branch' : Outcome → Process}
      (further : ∀ outcome, Twin wording (branch outcome) (branch' outcome)) :
      Twin wording (.await task branch) (.await task branch')
  | join {task : Nat} {rest rest' : Process} (further : Twin wording rest rest') :
      Twin wording (.join task rest) (.join task rest')
  | wait {gate : String} {rest rest' : Process} (further : Twin wording rest rest') :
      Twin wording (.wait gate rest) (.wait gate rest')
  | yield {rest rest' : Process} (further : Twin wording rest rest') :
      Twin wording (.yield rest) (.yield rest')

section Processes

variable {wording : Wording} {first second : Process}

theorem Process.Twin.refl (process : Process) : process.Twin wording process := by
  induction process with
  | done outcome => exact .done outcome
  | ask request branch ih => exact .ask ih
  | call role callable given branch ih => exact .call ih
  | leave role outcome rest ih => exact .leave ih
  | add role line body branch ihBody ih => exact .add (.inl rfl) ihBody ih
  | await task branch ih => exact .await ih
  | join task rest ih => exact .join ih
  | wait gate rest ih => exact .wait ih
  | yield rest ih => exact .yield ih

theorem Process.Twin.andThen {next next' : Outcome → Process} (twin : first.Twin wording second)
    (further : ∀ outcome, (next outcome).Twin wording (next' outcome)) :
    (first.andThen next).Twin wording (second.andThen next') := by
  induction twin with
  | done outcome => exact further outcome
  | ask _ ih => exact .ask ih
  | record words _ ih => exact .record words ih
  | note alike _ ih => exact .note alike ih
  | tell _ ih => exact .tell ih
  | search _ again _ ihFound ihMissing =>
    exact .search ihFound (congrArg (Process.andThen · next') again) ihMissing
  | call _ ih => exact .call ih
  | hear _ ih => exact .hear ih
  | leave _ ih => exact .leave ih
  | add words work _ _ ih => exact .add words work ih
  | await _ ih => exact .await ih
  | join _ ih => exact .join ih
  | wait _ ih => exact .wait ih
  | yield _ ih => exact .yield ih

/-- A process asks how a task ended. -/
theorem Process.Twin.outcome {task : Nat} {branch branch' : Option Outcome → Process}
    (ended : ∀ outcome, (branch (some outcome)).Twin wording (branch' (some outcome)))
    (pending : (branch none).Twin wording (branch' none)) :
    Twin wording (.ask (.outcome task) branch) (.ask (.outcome task) branch') := by
  refine .ask fun answer => ?_
  rcases answer with _ | outcome
  · exact pending
  · exact ended outcome

theorem Process.Twin.waiting {next next' : Outcome → Process} (task : Nat)
    (further : ∀ outcome, (next outcome).Twin wording (next' outcome)) :
    (Recorder.waiting task next).Twin wording (Recorder.waiting task next') :=
  .outcome further (.join (.outcome further (further _)))

/-- A task of the chain, at work on either of two twins. -/
theorem Process.Twin.task {own other : String} (session : Nat) (previous : Option Nat)
    (words : wording.Rewords own other) (twin : first.Twin wording second) :
    (Recorder.task session previous own (.ofProcess first)).toProcess.Twin wording
      (Recorder.task session previous other (.ofProcess second)).toProcess := by
  have opens : (Recorder.opening session own first).Twin wording
      (Recorder.opening session other second) :=
    .record words (twin.andThen fun _ => .refl _)
  rw [Recorder.task_toProcess, Recorder.task_toProcess]
  cases previous with
  | none => exact opens
  | some previous =>
    refine .waiting previous fun outcome => ?_
    cases outcome with
    | ok value => exact opens
    | error failure => exact .refl _

end Processes

/-! ## Worlds -/

inductive TaskState.Twin (wording : Wording) : TaskState → TaskState → Prop
  | scheduled {rest rest' : Process} (twin : rest.Twin wording rest') :
      Twin wording (.scheduled rest) (.scheduled rest')
  | awaiting {task : Nat} {next next' : Outcome → Process}
      (twin : ∀ outcome, (next outcome).Twin wording (next' outcome)) :
      Twin wording (.awaiting task next) (.awaiting task next')
  | joining {task : Nat} {rest rest' : Process} (twin : rest.Twin wording rest') :
      Twin wording (.joining task rest) (.joining task rest')
  | waiting {gate : String} {rest rest' : Process} (twin : rest.Twin wording rest') :
      Twin wording (.waiting gate rest) (.waiting gate rest')
  | done (outcome : Outcome) : Twin wording (.done outcome) (.done outcome)

theorem TaskState.Twin.refl {wording : Wording} (state : TaskState) :
    state.Twin wording state := by
  cases state with
  | scheduled rest => exact .scheduled (.refl rest)
  | awaiting task next => exact .awaiting fun outcome => .refl (next outcome)
  | joining task rest => exact .joining (.refl rest)
  | waiting gate rest => exact .waiting (.refl rest)
  | done outcome => exact .done outcome

inductive Task.Twin (wording : Wording) : Task → Task → Prop
  | of {state state' : TaskState} {cancelRequested : Bool} {watchers : List Watcher}
      (twin : state.Twin wording state') :
      Twin wording ⟨state, cancelRequested, watchers⟩ ⟨state', cancelRequested, watchers⟩

section Lists

variable {α : Type} {related : α → α → Prop} {first second : List α}

theorem forall₂_modify {change change' : α → α} (pairs : List.Forall₂ related first second)
    (kept : ∀ {one other}, related one other → related (change one) (change' other)) (place : Nat) :
    List.Forall₂ related (first.modify place change) (second.modify place change') := by
  induction pairs generalizing place with
  | nil => simp
  | cons pair pairs ih =>
    cases place with
    | zero => exact .cons (kept pair) pairs
    | succ place => exact .cons pair (ih place)

theorem forall₂_getElem? (pairs : List.Forall₂ related first second) (place : Nat) :
    Option.Rel related first[place]? second[place]? := by
  induction pairs generalizing place with
  | nil => exact .none
  | cons pair pairs ih =>
    cases place with
    | zero => exact .some pair
    | succ place => exact ih place

end Lists

/-- Two logs of effects tell alike, entry by entry. -/
structure EffectLog.Alike (alike : Value → Value → Prop) (log other : EffectLog) : Prop where
  closed : List.Forall₂ (List.Forall₂ alike) log.closed other.closed
  present : List.Forall₂ alike log.present other.present

section Logs

variable {alike : Value → Value → Prop} {log other : EffectLog}

theorem EffectLog.Alike.refl (reflexive : ∀ value, alike value value) (log : EffectLog) :
    log.Alike alike log :=
  ⟨List.forall₂_same.2 fun _ _ => List.forall₂_same.2 fun value _ => reflexive value,
    List.forall₂_same.2 fun value _ => reflexive value⟩

theorem EffectLog.Alike.presentNumber (same : log.Alike alike other) :
    other.presentNumber = log.presentNumber :=
  same.closed.length_eq.symm

theorem EffectLog.Alike.note {value value' : Value} (same : log.Alike alike other) (number : Nat)
    (pair : alike value value') : (log.note number value).Alike alike (other.note number value') := by
  unfold EffectLog.note
  rw [same.presentNumber]
  split
  · refine ⟨forall₂_modify same.closed (fun entries => ?_) number, same.present⟩
    exact List.rel_append entries (.cons pair .nil)
  · exact ⟨same.closed, List.rel_append same.present (.cons pair .nil)⟩

theorem EffectLog.Alike.closeSection (same : log.Alike alike other) :
    log.closeSection.Alike alike other.closeSection :=
  ⟨List.rel_append same.closed (.cons same.present .nil), .nil⟩

end Logs

/-- Two worlds are the same but for the wording of a dispatch: in their traces and logs, in what is left
to do of their tasks, and in what is at hand. -/
inductive World.Twin (wording : Wording) (world : World) : World → Prop
  | of {trace : List String} {log : EffectLog} {tasks : List Task}
      {current : Option (Owner × Process)}
      (lines : List.Forall₂ wording.Rewords world.recorder.trace trace)
      (noted : world.log.Alike wording.alike log)
      (states : List.Forall₂ (Task.Twin wording) world.tasks tasks)
      (hand : Option.Rel (fun running running' => running.1 = running'.1 ∧
        running.2.Twin wording running'.2) world.current current) :
      Twin wording world { world with
        recorder := { world.recorder with trace := trace }
        log := log, tasks := tasks, current := current }

/-- In the world nothing depends on how a dispatch is worded. -/
structure World.Impartial (wording : Wording) (world : World) : Prop where
  /-- Where helpers are searched for the method and none has it, none takes any action. -/
  served : ∀ owner, world.act? = some (owner, .ask (.method wording.name)) →
    world.container.findMethod? world.readyHelpers wording.name = none →
      world.container.findMethod? world.readyHelpers "do" = none
  /-- Those that are told of the dispatch are no collectors of results. -/
  scripted : ∀ owner event more,
    world.act? = some (owner, .ask (.subscribers .actor event (wording.method :: more))) →
      ∀ listener ∈ world.dispatcher.listeners event, ∃ name, listener = .scripted name
  /-- A listener that is called does the same whatever the wording is that it is told. -/
  heedless : ∀ owner callable more,
    world.act? = some (owner, .call .listener callable (wording.method :: more)) →
      (callable.process .listener (wording.method :: more)).Twin wording
        (callable.process .listener (wording.action :: more))

namespace World.Twin

variable {wording : Wording} {world other : World} {number : Nat}

theorem refl (world : World) : world.Twin wording world := by
  refine .of (List.forall₂_same.2 fun _ _ => .inl rfl) (.refl wording.refl world.log)
    (List.forall₂_same.2 fun task _ => .of (.refl task.state)) ?_
  cases world.current with
  | none => exact .none
  | some running => exact .some ⟨rfl, .refl running.2⟩

theorem length (twin : world.Twin wording other) : other.tasks.length = world.tasks.length := by
  obtain ⟨_, _, states, _⟩ := twin
  exact states.length_eq.symm

theorem task (twin : world.Twin wording other) (number : Nat) :
    Option.Rel (Task.Twin wording) world.tasks[number]? other.tasks[number]? := by
  obtain ⟨_, _, states, _⟩ := twin
  exact forall₂_getElem? states number

theorem state? (twin : world.Twin wording other) (number : Nat) :
    Option.Rel (TaskState.Twin wording) (world.state? number) (other.state? number) := by
  have pair := twin.task number
  unfold World.state?
  generalize world.tasks[number]? = found, other.tasks[number]? = found' at pair ⊢
  rcases pair with ⟨⟨pair⟩⟩ | _
  · exact .some pair
  · exact .none

theorem outcome? (twin : world.Twin wording other) (number : Nat) :
    other.outcome? number = world.outcome? number := by
  have pair := twin.state? number
  unfold World.outcome?
  generalize world.state? number = found, other.state? number = found' at pair ⊢
  rcases pair with pair | _
  · cases pair <;> rfl
  · rfl

theorem watchers (twin : world.Twin wording other) (number : Nat) :
    other.watchers number = world.watchers number := by
  have pair := twin.task number
  unfold World.watchers
  generalize world.tasks[number]? = found, other.tasks[number]? = found' at pair ⊢
  rcases pair with ⟨⟨_⟩⟩ | _ <;> rfl

theorem enqueue (twin : world.Twin wording other) (handle : Handle) :
    (world.enqueue handle).Twin wording (other.enqueue handle) := by
  obtain ⟨lines, noted, states, hand⟩ := twin
  exact .of lines noted states hand

theorem proceed {first second : Process} (twin : world.Twin wording other) (owner : Owner)
    (process : first.Twin wording second) :
    (world.proceed owner first).Twin wording (other.proceed owner second) := by
  obtain ⟨lines, noted, states, _⟩ := twin
  exact .of lines noted states (.some ⟨rfl, process⟩)

theorem setState {state state' : TaskState} (twin : world.Twin wording other) (number : Nat)
    (pair : state.Twin wording state') :
    (world.setState number state).Twin wording (other.setState number state') := by
  obtain ⟨lines, noted, states, hand⟩ := twin
  refine .of lines noted (forall₂_modify states ?_ number) hand
  rintro _ _ ⟨_⟩
  exact .of pair

theorem schedule {first second : Process} (twin : world.Twin wording other) (number : Nat)
    (process : first.Twin wording second) :
    (world.schedule number first).Twin wording (other.schedule number second) :=
  (twin.setState number (.scheduled process)).enqueue _

theorem watch (twin : world.Twin wording other) (number : Nat) (watcher : Watcher) :
    (world.watch number watcher).Twin wording (other.watch number watcher) := by
  obtain ⟨lines, noted, states, hand⟩ := twin
  refine .of lines noted (forall₂_modify states ?_ number) hand
  rintro _ _ ⟨pair⟩
  exact .of pair

theorem close (twin : world.Twin wording other) (number : Nat) (outcome : Outcome) :
    (world.close number outcome).Twin wording (other.close number outcome) := by
  obtain ⟨lines, noted, states, hand⟩ := twin
  refine .of lines noted (forall₂_modify states ?_ number) hand
  rintro _ _ ⟨_⟩
  exact .of (.done outcome)

theorem spawn {first second : Process} (twin : world.Twin wording other)
    (process : first.Twin wording second) :
    (world.spawn first).1.Twin wording (other.spawn second).1 := by
  have length := twin.length
  obtain ⟨lines, noted, states, hand⟩ := twin
  unfold World.spawn
  rw [length]
  exact .of lines noted (List.rel_append states (.cons (.of (.scheduled process)) .nil)) hand

theorem alert (twin : world.Twin wording other) (outcome : Outcome) (watcher : Watcher) :
    (World.alert outcome world watcher).Twin wording (World.alert outcome other watcher) := by
  cases watcher with
  | resume task =>
    have pair := twin.state? task
    simp only [World.alert]
    generalize world.state? task = found, other.state? task = found' at pair ⊢
    rcases pair with (process | process | process | process | _) | _
    · exact twin
    · exact twin.schedule task (process outcome)
    all_goals exact twin
  | fulfil task => exact twin.enqueue _
  | notify callable => exact twin.enqueue _

theorem finish (twin : world.Twin wording other) (number : Nat) (outcome : Outcome) :
    (world.finish number outcome).Twin wording (other.finish number outcome) := by
  unfold World.finish
  rw [twin.watchers number]
  generalize world.watchers number = watchers
  have closed := twin.close number outcome
  generalize world.close number outcome = first, other.close number outcome = second at closed
  induction watchers generalizing first second with
  | nil => exact closed
  | cons watcher rest ih => exact ih _ _ (closed.alert outcome watcher)

theorem answer (twin : world.Twin wording other) (outcome : Outcome) :
    Twin wording { world with answer := some outcome } { other with answer := some outcome } := by
  obtain ⟨lines, noted, states, hand⟩ := twin
  exact .of lines noted states hand

theorem conclude (twin : world.Twin wording other) (owner : Owner) (outcome : Outcome) :
    (world.conclude owner outcome).Twin wording (other.conclude owner outcome) := by
  cases owner with
  | task number => exact twin.finish number outcome
  | caller => exact twin.answer _

theorem suspend {leave leave' : Nat → World} (twin : world.Twin wording other) (owner : Owner)
    (leaves : ∀ number, (leave number).Twin wording (leave' number)) :
    (world.suspend owner leave).Twin wording (other.suspend owner leave') := by
  cases owner with
  | task number => exact leaves number
  | caller => exact twin.answer _

theorem setTail (twin : world.Twin wording other) (tail : Option Nat) :
    Twin wording { world with recorder := { world.recorder with tail := tail } }
      { other with recorder := { other.recorder with tail := tail } } := by
  obtain ⟨lines, noted, states, hand⟩ := twin
  exact .of lines noted states hand

theorem looping (twin : world.Twin wording other) : other.looping = world.looping := by
  obtain ⟨_, _, _, _⟩ := twin
  rfl

theorem session (twin : world.Twin wording other) :
    other.recorder.session = world.recorder.session := by
  obtain ⟨_, _, _, _⟩ := twin
  rfl

theorem tail (twin : world.Twin wording other) : other.recorder.tail = world.recorder.tail := by
  obtain ⟨_, _, _, _⟩ := twin
  rfl

theorem addTask {own line : String} {first second : Process} (twin : world.Twin wording other)
    (words : wording.Rewords own line) (process : first.Twin wording second) :
    (other.addTask line second).1 = (world.addTask own first).1 ∧
      (world.addTask own first).2.Twin wording (other.addTask line second).2 := by
  rcases addTask_cases world own first with ⟨still, result⟩ | ⟨loops, result⟩
  · rcases addTask_cases other line second with ⟨_, result'⟩ | ⟨loops, _⟩
    · rw [result, result']
      exact ⟨rfl, twin⟩
    · rw [twin.looping, still] at loops
      cases loops
  · rcases addTask_cases other line second with ⟨still, _⟩ | ⟨_, result'⟩
    · rw [twin.looping, loops] at still
      cases still
    · have spawned := twin.spawn (.task world.recorder.session world.recorder.tail words process)
      rw [result, result', twin.length, twin.session, twin.tail]
      exact ⟨rfl, spawned.setTail _⟩

theorem recover (twin : world.Twin wording other) :
    other.recover.1 = world.recover.1 ∧ world.recover.2.Twin wording other.recover.2 := by
  unfold World.recover
  rw [twin.tail]
  split
  · exact ⟨rfl, twin.setTail none⟩
  · rename_i previous _
    rw [twin.outcome? previous]
    dsimp only
    split
    · exact ⟨rfl, twin.setTail none⟩
    · by_cases loops : world.looping = true
      · rw [if_neg (by simp [twin.looping, loops]), if_neg (by simp [loops])]
        refine ⟨rfl, ?_⟩
        have spawned := (twin.spawn (.refl (Recorder.abandoned previous).toProcess)).setTail
          (some world.tasks.length)
        simpa only [World.spawn, twin.length] using spawned
      · rw [if_pos (by simp [twin.looping, loops]), if_pos (by simp [loops])]
        exact ⟨rfl, twin⟩

theorem record {own line : String} (twin : world.Twin wording other) (session : Nat)
    (words : wording.Rewords own line) :
    (world.respond (.record session own)).2.Twin wording
      (other.respond (.record session line)).2 := by
  obtain ⟨lines, noted, states, hand⟩ := twin
  unfold World.respond Recorder.record
  dsimp only
  split
  · exact .of (List.rel_append lines (.cons words .nil)) noted states hand
  · exact .of lines noted states hand

theorem note {value value' : Value} (twin : world.Twin wording other) (number : Nat)
    (alike : wording.alike value value') :
    (world.respond (.note number value)).2.Twin wording (other.respond (.note number value')).2 := by
  obtain ⟨lines, noted, states, hand⟩ := twin
  exact .of lines (noted.note number alike) states hand

/-- A request is answered alike in both worlds. -/
theorem respond (twin : world.Twin wording other) (request : Request) :
    (other.respond request).1 = (world.respond request).1 ∧
      (world.respond request).2.Twin wording (other.respond request).2 := by
  match request with
  | .outcome task => exact ⟨twin.outcome? task, twin⟩
  | .recorder role .recover => exact twin.recover
  | .record session line => exact ⟨rfl, twin.record session (.inl rfl)⟩
  | .note number value => exact ⟨rfl, twin.note number (wording.refl value)⟩
  | .logSection =>
    refine ⟨?_, twin⟩
    obtain ⟨_, noted, _, _⟩ := twin
    exact noted.presentNumber
  | .recorder role .startUnlessRunning =>
    obtain ⟨lines, noted, states, hand⟩ := twin
    simp only [World.respond, World.operate, Recorder.startUnlessRunning]
    split
    · exact ⟨rfl, .of lines noted states hand⟩
    · exact ⟨rfl, .of .nil noted states hand⟩
  | .recorder role .start =>
    obtain ⟨_, noted, states, hand⟩ := twin
    exact ⟨rfl, .of .nil noted states hand⟩
  | .count number amount =>
    obtain ⟨lines, noted, states, hand⟩ := twin
    simp only [World.respond, World.addToTotal]
    split
    · exact ⟨rfl, .of lines noted states hand⟩
    · exact ⟨rfl, .of lines noted states hand⟩
  | .recorder role .stop | .advance _ | .valueOf _ | .assign .. |
    .subscribe .. | .unsubscribe .. | .subscribers .. | .tail | .method _ | .collect .. =>
    obtain ⟨lines, noted, states, hand⟩ := twin
    exact ⟨rfl, .of lines noted states hand⟩

theorem rest (twin : world.Twin wording other) :
    Twin wording { world with current := none } { other with current := none } := by
  obtain ⟨lines, noted, states, _⟩ := twin
  exact .of lines noted states .none

theorem await {task : Nat} {branch branch' : Outcome → Process} (twin : world.Twin wording other)
    (owner : Owner) (further : ∀ outcome, (branch outcome).Twin wording (branch' outcome)) :
    (world.runNode owner (.await task branch)).Twin wording
      (other.runNode owner (.await task branch')) := by
  simp only [World.runNode, twin.length, twin.outcome?]
  split
  · exact twin.proceed owner (further _)
  · split
    · exact twin.proceed owner (further _)
    · exact twin.suspend owner fun number => (twin.setState number (.awaiting further)).watch task _

theorem join {task : Nat} {rest rest' : Process} (twin : world.Twin wording other) (owner : Owner)
    (further : rest.Twin wording rest') :
    (world.runNode owner (.join task rest)).Twin wording
      (other.runNode owner (.join task rest')) := by
  simp only [World.runNode, twin.length, twin.outcome?]
  split
  · exact twin.proceed owner further
  · refine twin.suspend owner fun number => ?_
    have joining : TaskState.Twin wording (.joining task rest) (.joining task rest') := .joining further
    split
    · exact (twin.setState number joining).enqueue _
    · exact (twin.setState number joining).watch task _

theorem wait {gate : String} {rest rest' : Process} (twin : world.Twin wording other)
    (owner : Owner) (further : rest.Twin wording rest') :
    (world.runNode owner (.wait gate rest)).Twin wording
      (other.runNode owner (.wait gate rest')) := by
  have gates : other.openGates = world.openGates := by
    obtain ⟨_, _, _, _⟩ := twin
    rfl
  simp only [World.runNode, gates]
  split
  · exact twin.proceed owner further
  · exact twin.suspend owner fun number => twin.setState number (.waiting further)

/-- One node of a process, and the same of its twin: unless that searches once more, which finds
nothing either. -/
theorem runNode {owner : Owner} {first second : Process} (twin : world.Twin wording other)
    (impartial : world.Impartial wording) (running : world.current = some (owner, first))
    (process : first.Twin wording second) :
    Twin wording ({ world with current := none }.runNode owner first)
        ({ other with current := none }.runNode owner second) ∨
      ∃ rest, { other with current := none }.runNode owner second =
          other.proceed owner (.ask (.method "do") rest) ∧
        (other.respond (.method "do")).1 = (none : Option Method) ∧
        Twin wording ({ world with current := none }.runNode owner first)
          (other.proceed owner (rest (none : Option Method))) := by
  have idle := twin.rest
  cases process with
  | done outcome => exact .inl (idle.conclude owner outcome)
  | @ask request branch branch' further =>
    left
    obtain ⟨same, after⟩ := twin.respond request
    rw [runNode_ask, runNode_ask, same]
    exact after.proceed owner (further _)
  | @record session own line branch branch' words further =>
    left
    rw [runNode_ask, runNode_ask]
    exact (twin.record session words).proceed owner further
  | @note number value value' branch branch' alike further =>
    left
    rw [runNode_ask, runNode_ask]
    exact (twin.note number alike).proceed owner further
  | @tell event more branch branch' further =>
    left
    have same : (other.respond (.subscribers .actor event (wording.action :: more))).1 =
        (world.dispatcher.listeners event).map world.subscriber :=
      (twin.respond (.subscribers .actor event _)).1
    rw [runNode_ask, runNode_ask, same]
    refine twin.proceed owner (further _ (List.forall_mem_map.2 fun listener subscribed => ?_))
    obtain ⟨name, rfl⟩ :=
      impartial.scripted owner event more (act?_of_running running rfl) listener subscribed
    simp only [World.subscriber]
    split <;> exact ⟨_, rfl⟩
  | @search branch branch' rest found again missing =>
    have same := (twin.respond (.method wording.name)).1
    rw [runNode_ask, runNode_ask, same]
    rcases searched : world.container.findMethod? world.readyHelpers wording.name with _ | method
    · right
      have none := impartial.served owner (act?_of_running running rfl) searched
      rw [show (world.respond (.method wording.name)).1 = (Option.none : Option Method) from searched,
        again]
      exact ⟨rest, rfl, (twin.respond (.method "do")).1.trans none, twin.proceed owner missing⟩
    · left
      rw [show (world.respond (.method wording.name)).1 = some method from searched]
      exact twin.proceed owner (found method)
  | call further => exact .inl (twin.proceed owner ((Process.Twin.refl _).andThen further))
  | @hear callable more branch branch' further =>
    have told := impartial.heedless owner callable more (act?_of_running running rfl)
    exact .inl (twin.proceed owner (told.andThen further))
  | leave further => exact .inl (twin.proceed owner further)
  | @add role own line body body' branch branch' words work further =>
    left
    obtain ⟨same, after⟩ := twin.addTask words work
    rw [runNode_add, runNode_add, same]
    exact after.proceed owner (further _)
  | await further => exact .inl (idle.await owner further)
  | join further => exact .inl (idle.join owner further)
  | wait further => exact .inl (idle.wait owner further)
  | yield further => exact .inl (idle.suspend owner fun number => idle.schedule number further)

theorem resume (twin : world.Twin wording other) (number : Nat) :
    (world.resume number).Twin wording (other.resume number) := by
  have pair := twin.task number
  unfold World.resume
  generalize world.tasks[number]? = found, other.tasks[number]? = found' at pair ⊢
  rcases pair with ⟨⟨process | _ | _ | _ | _⟩⟩ | _
  · dsimp only
    split
    · exact twin.finish number _
    · exact twin.proceed _ process
  all_goals exact twin

theorem handle (twin : world.Twin wording other) (handle : Handle) :
    (world.handle handle).Twin wording (other.handle handle) := by
  cases handle with
  | resume number => exact twin.resume number
  | fulfil number =>
    have pair := twin.state? number
    simp only [World.handle]
    generalize world.state? number = found, other.state? number = found' at pair ⊢
    rcases pair with (process | process | process | process | _) | _
    case some.joining => exact twin.schedule number process
    all_goals exact twin
  | notify callable given => exact twin.proceed .caller (.refl _)

theorem turn (twin : world.Twin wording other) : world.nextTurn.Twin wording other.nextTurn := by
  obtain ⟨lines, noted, states, hand⟩ := twin
  exact .of lines noted states hand

theorem release (twin : world.Twin wording other) (gate : String) (number : Nat) :
    (World.release gate world number).Twin wording (World.release gate other number) := by
  have pair := twin.state? number
  unfold World.release
  generalize world.state? number = found, other.state? number = found' at pair ⊢
  rcases pair with (process | process | process | process | _) | _
  case some.waiting =>
    dsimp only
    split
    · exact twin.schedule number process
    · exact twin
  all_goals exact twin

theorem openGate (twin : world.Twin wording other) (gate : String) :
    (world.openGate gate).Twin wording (other.openGate gate) := by
  have opened : Twin wording { world with openGates := gate :: world.openGates }
      { other with openGates := gate :: other.openGates } := by
    obtain ⟨lines, noted, states, hand⟩ := twin
    exact .of lines noted states hand
  unfold World.openGate
  rw [twin.length]
  dsimp only
  generalize List.range world.tasks.length = numbers
  generalize { world with openGates := gate :: world.openGates } = first at opened ⊢
  generalize { other with openGates := gate :: other.openGates } = second at opened ⊢
  induction numbers generalizing first second with
  | nil => exact opened
  | cons number rest ih => exact ih _ _ (opened.release gate number)

theorem mark (twin : world.Twin wording other) (number : Nat) :
    Twin wording
      { world with tasks := world.tasks.modify number ({ · with cancelRequested := true }) }
      { other with tasks := other.tasks.modify number ({ · with cancelRequested := true }) } := by
  obtain ⟨lines, noted, states, hand⟩ := twin
  refine .of lines noted (forall₂_modify states ?_ number) hand
  rintro _ _ ⟨pair⟩
  exact .of pair

theorem cancel (twin : world.Twin wording other) (number : Nat) :
    (world.cancel number).Twin wording (other.cancel number) := by
  unfold World.cancel
  rw [twin.length]
  induction world.tasks.length + 1 generalizing number with
  | zero => exact twin
  | succ depth ih =>
    have pair := twin.task number
    have marked := twin.mark number
    simp only [World.cancelWithin]
    generalize world.tasks[number]? = found, other.tasks[number]? = found' at pair ⊢
    rcases pair with ⟨⟨process | _ | process | process | _⟩⟩ | _
    · exact marked
    · exact ih _
    · exact marked.schedule number process
    · exact marked.schedule number process
    · exact twin
    · exact twin

theorem cancelAll (twin : world.Twin wording other) :
    world.cancelAll.Twin wording other.cancelAll := by
  obtain ⟨lines, noted, states, hand⟩ := twin
  refine .of lines noted ?_ hand
  refine List.forall₂_map_left_iff.2 (List.forall₂_map_right_iff.2 (states.imp ?_))
  rintro _ _ ⟨_ | _ | _ | _ | outcome⟩
  case done => exact .of (.done outcome)
  all_goals exact .of (.done _)

end World.Twin

/-! ## Runs -/

/-- What may come from outside: whatever leaves the log alone, the end of a section of the log, and
cancellations, of a task or of all that have not ended. -/
inductive World.Occurrence (brings : Process → Prop) (world : World) : World → Prop
  | comes {next : World} (comes : Intervention brings world next) (log : next.log = world.log) :
      Occurrence brings world next
  | closes : Occurrence brings world { world with log := world.log.closeSection }
  | cancels (number : Nat) : Occurrence brings world (world.cancel number)
  | ends : Occurrence brings world world.cancelAll

/-- Calls a method of a helper. Of one that counts, the number is seen, and of one that echoes, what it
logs. -/
def Act.employs : Act → Bool
  | .ask (.count ..) | .call .method .. => true
  | _ => false

/-- The calls of helpers' methods, with whose they are. -/
def World.History.employed (passed : History) : List (Owner × Act) :=
  passed.flatMap fun world => (world.act?.filter (·.2.employs)).toList

theorem World.History.employed_append (before after : History) :
    History.employed (before ++ after) = History.employed before ++ History.employed after :=
  List.flatMap_append

section Steps

variable {wording : Wording} {brings : Process → Prop} {world next other : World}

theorem Process.Twin.employs {first second : Process} (twin : first.Twin wording second) :
    second.act?.filter (·.employs) = first.act?.filter (·.employs) := by
  cases twin <;> rfl

theorem World.Twin.current (twin : world.Twin wording other) :
    world.current = none ∧ other.current = none ∨ ∃ owner first second,
      world.current = some (owner, first) ∧ other.current = some (owner, second) ∧
        first.Twin wording second := by
  obtain @⟨_, _, _, running', _, _, _, hand⟩ := twin
  generalize world.current = running at hand
  rcases hand with @⟨⟨owner, first⟩, ⟨_, second⟩, rfl, process⟩ | _
  · exact .inr ⟨owner, first, second, rfl, rfl, process⟩
  · exact .inl ⟨rfl, rfl⟩

theorem World.Twin.idle (twin : world.Twin wording other) (idle : world.current = none) :
    other.current = none := by
  rcases twin.current with ⟨_, idle'⟩ | ⟨_, _, _, running, _⟩
  · exact idle'
  · rw [idle] at running
    cases running

theorem World.History.employed_of_running {owner : Owner} {process : Process}
    (running : world.current = some (owner, process)) :
    History.employed [world] = ((process.act?.filter (·.employs)).map (owner, ·)).toList := by
  have acts : world.act? = process.act?.map (owner, ·) := by simp [World.act?, running]
  rw [employed, List.flatMap_singleton, acts, Option.filter_map]
  rfl

theorem World.History.employed_of_idle (idle : world.current = none) :
    History.employed [world] = [] := by
  simp [employed, World.act?, idle]

theorem World.Twin.employed (twin : world.Twin wording other) :
    History.employed [other] = History.employed [world] := by
  rcases twin.current with ⟨idle, idle'⟩ | ⟨owner, first, second, running, running', process⟩
  · rw [History.employed_of_idle idle, History.employed_of_idle idle']
  · rw [History.employed_of_running running, History.employed_of_running running', process.employs]

theorem World.step?_of_idle {handle : Handle} {rest : List Handle} (idle : world.current = none)
    (ready : world.ready = handle :: rest) :
    world.step? = some ({ world with ready := rest }.handle handle) := by
  simp only [World.step?, idle, ready]

/-- A step of the one world is a step of the other, or two where that searches once more. -/
theorem World.Twin.step {outside : World → World → Prop} (twin : world.Twin wording other)
    (impartial : world.Impartial wording) (moved : world.step? = some next) :
    ∃ passed next', Run outside other passed next' ∧ next.Twin wording next' ∧
      History.employed passed = History.employed [world] := by
  rcases twin.current with ⟨idle, idle'⟩ | ⟨owner, first, second, running, running', process⟩
  · rcases ready : world.ready with _ | ⟨handle, rest⟩
    · simp [World.step?, idle, ready] at moved
    · have ready' : other.ready = handle :: rest := by
        obtain ⟨_, _, _, _⟩ := twin
        exact ready
      have taken : Twin wording { world with ready := rest } { other with ready := rest } := by
        obtain ⟨lines, noted, states, hand⟩ := twin
        exact .of lines noted states hand
      rw [step?_of_idle idle ready, Option.some.injEq] at moved
      subst moved
      have moved' := step?_of_idle idle' ready'
      exact ⟨[other], _, Run.refl.step moved', taken.handle handle, twin.employed⟩
  · rw [step?_of_running running, Option.some.injEq] at moved
    subst moved
    have moved' := step?_of_running running'
    rcases twin.runNode impartial running process with after | ⟨rest, searches, missing, after⟩
    · exact ⟨[other], _, Run.refl.step moved', after, twin.employed⟩
    · rw [searches] at moved'
      have searching : (other.proceed owner (.ask (.method "do") rest)).current =
        some (owner, .ask (.method "do") rest) := rfl
      have again : (other.proceed owner (.ask (.method "do") rest)).step? =
          some (other.proceed owner (rest (none : Option Method))) := by
        rw [step?_of_running searching, runNode_ask, show ((other.proceed owner _).respond
          (.method "do")).1 = (none : Option Method) from missing]
        rfl
      refine ⟨[other] ++ [_], _, (Run.refl.step moved').step again, after, ?_⟩
      rw [History.employed_append, twin.employed, History.employed_of_running searching]
      exact List.append_nil _

/-- What may come from outside may come to the other world as well. -/
theorem World.Twin.occurrence (twin : world.Twin wording other)
    (occurs : Occurrence brings world next) :
    ∃ next', Occurrence brings other next' ∧ next.Twin wording next' := by
  cases occurs with
  | closes =>
    refine ⟨_, .closes, ?_⟩
    obtain ⟨lines, noted, states, hand⟩ := twin
    exact .of lines noted.closeSection states hand
  | cancels number => exact ⟨_, .cancels number, twin.cancel number⟩
  | ends => exact ⟨_, .ends, twin.cancelAll⟩
  | comes comes kept =>
    cases comes with
    | @enters process brought idle =>
      have idle' := twin.idle idle
      obtain ⟨lines, noted, states, _⟩ := twin
      exact ⟨_, .comes (.enters brought idle') rfl,
        .of lines noted states (.some ⟨rfl, .refl process⟩)⟩
    | @spawns process brought =>
      exact ⟨_, .comes (.spawns brought) rfl, twin.spawn (.refl process)⟩
    | watches task callable =>
      exact ⟨_, .comes (.watches task callable) rfl, twin.watch task _⟩
    | alters apart =>
      obtain @⟨trace, log, tasks, current, lines, noted, states, hand⟩ := twin
      refine ⟨{ next with
        recorder := { world.recorder with trace := trace }
        log := log, tasks := tasks, current := current }, .comes (.alters ?_) rfl, ?_⟩
      · rw [apart]
      · rw [apart] at kept ⊢
        exact .of lines (kept ▸ noted) states hand

theorem World.Twin.between (twin : world.Twin wording other)
    (between : world.Between (Occurrence brings) next) :
    ∃ next', other.Between (Occurrence brings) next' ∧ next.Twin wording next' := by
  cases between with
  | turn => exact ⟨_, .turn, twin.turn⟩
  | gate gate idle => exact ⟨_, .gate gate (twin.idle idle), twin.openGate gate⟩
  | outside occurs =>
    obtain ⟨next', occurs', after⟩ := twin.occurrence occurs
    exact ⟨next', .outside occurs', after⟩

/-- As long as nothing depends on the wording, a run of the one world is a run of the other, in which
helpers do the same. -/
theorem World.Twin.run {start start' : World} {passed : History} (twin : start.Twin wording start')
    (run : Run (Occurrence brings) start passed world)
    (impartial : ∀ past ∈ passed, past.Impartial wording) : ∃ passed' world',
      Run (Occurrence brings) start' passed' world' ∧ world.Twin wording world' ∧
      History.employed passed' = History.employed passed := by
  induction run with
  | refl => exact ⟨[], start', .refl, twin, rfl⟩
  | @step passed world next _ moved ih =>
    obtain ⟨before, reached, run, twin, employed⟩ :=
      ih fun past member => impartial past (List.mem_append_left _ member)
    obtain ⟨later, next', further, after, employed'⟩ :=
      twin.step (impartial world (by simp)) moved
    refine ⟨before ++ later, next', run.trans further, after, ?_⟩
    rw [History.employed_append, History.employed_append, employed, employed']
  | between _ between ih =>
    obtain ⟨before, reached, run, twin, employed⟩ := ih impartial
    obtain ⟨next', between', after⟩ := twin.between between
    exact ⟨before, next', run.between between', after, employed⟩

end Steps

end FeatureRunner
