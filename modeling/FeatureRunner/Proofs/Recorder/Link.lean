import FeatureRunner.Proofs.World.Run

/-!
The links of the recorder's chain. A link waits for the one before it, opens with its name in the
trace, works, and ends; a failure before it is passed on instead. It stands at one of a few stages,
and a step takes it from one to another.
-/

namespace FeatureRunner

/-! ## The parts of a task of the chain -/

namespace Recorder

/-- What follows the work of a task. -/
def report (session : Nat) : Outcome → Process
  | .error (.fault fault) =>
    .ask (.record session ("error: " ++ fault.message)) fun _ => .done (.error (.fault fault))
  | outcome => .done outcome

/-- A task from where it begins. -/
def opening (session : Nat) (name : String) (body : Process) : Process :=
  .ask (.record session name) fun _ => body.andThen (report session)

/-- Takes the outcome of a task that should have ended. -/
def checking (task : Nat) (next : Outcome → Process) : Process :=
  .ask (.outcome task) fun
    | some outcome => next outcome
    | none => next (.error (.fault .resultNotSet))

/-- Takes the outcome of a task, if necessary after its end. -/
def waiting (task : Nat) (next : Outcome → Process) : Process :=
  .ask (.outcome task) fun
    | some outcome => next outcome
    | none => .join task (checking task next)

/-- Goes on after a success and passes a failure on. -/
def follow (rest : Process) : Outcome → Process
  | .ok _ => rest
  | .error failure => .done (.error failure)

theorem resultOf_apply (task : Nat) (next : Outcome → Process) :
    resultOf task next = checking task next :=
  Process.ask_congr fun answer => by cases answer <;> rfl

theorem settled_apply (task : Nat) (next : Outcome → Process) :
    settled task next = waiting task next := by
  refine Process.ask_congr fun answer => ?_
  cases answer with
  | some outcome => rfl
  | none => exact congrArg (Process.join task) (resultOf_apply task next)

/-- A task of the chain in its parts. -/
theorem task_toProcess (session : Nat) (previous : Option Nat) (name : String) (body : Process) :
    (task session previous name (.ofProcess body)).toProcess =
      match previous with
      | none => opening session name body
      | some previous => waiting previous (follow (opening session name body)) := by
  have opens (reports : Outcome → Process) (same : ∀ outcome, reports outcome =
      report session outcome) : body.andThen reports = body.andThen (report session) :=
    congrArg body.andThen (funext same)
  cases previous with
  | none =>
    refine Process.ask_congr fun _ => opens _ fun outcome => ?_
    rcases outcome with (fault | _) | value <;> rfl
  | some previous =>
    refine (settled_apply previous _).trans (congrArg (waiting previous) (funext fun outcome => ?_))
    cases outcome with
    | error failure => rfl
    | ok value =>
      refine Process.ask_congr fun _ => opens _ fun outcome => ?_
      rcases outcome with (fault | _) | value <;> rfl

theorem report_act {session : Nat} {outcome : Outcome} {act : Act} {after : Process}
    (moves : Process.Next mute act (report session outcome) after) :
    ∃ fault, outcome = .error (.fault fault) ∧
      act = .ask (.record session ("error: " ++ fault.message)) ∧
      after = .done (.error (.fault fault)) := by
  rcases outcome with (fault | _) | value
  · unfold report at moves
    cases moves with
    | ask fair => exact ⟨fault, rfl, rfl, rfl⟩
  · cases moves
  · cases moves

end Recorder

open Recorder

/-! ## Links and their stages -/

/-- A task of the recorder's chain. One that stands for an abandoned chain has no work. -/
structure Link where
  number : Nat
  session : Nat
  previous : Option Nat
  work : Option (String × Process)

/-- The link that the next step makes. -/
def World.link? (world : World) : Option Link :=
  match world.act? with
  | some (_, .add _ name body) =>
    if world.looping then
      some ⟨world.tasks.length, world.recorder.session, world.recorder.tail, some (name, body)⟩
    else none
  | some (_, .ask (.recorder _ .recover)) =>
    match world.recorder.tail with
    | some previous =>
      if (world.outcome? previous).isSome || !world.looping then none
      else some ⟨world.tasks.length, world.recorder.session, some previous, none⟩
    | none => none
  | _ => none

/-- The line that a request writes. -/
def Request.line? : Request → Option String
  | .record _ line => some line
  | _ => none

/-- What a task writes to the trace in the next step. -/
def World.writes? (world : World) (number : Nat) : Option String :=
  match world.act? with
  | some (.task speaker, .ask request) => if speaker = number then request.line? else none
  | _ => none

/-- The task before a link has ended well, if there is one. -/
def Link.Ready (world : World) (link : Link) : Prop :=
  ∀ previous, link.previous = some previous → ∃ value, world.outcome? previous = some (.ok value)

/-- The task before a link has ended, if there is one. -/
def Link.Late (world : World) (link : Link) : Prop :=
  ∀ previous, link.previous = some previous → (world.outcome? previous).isSome

theorem Link.Ready.late {world : World} {link : Link} (ready : link.Ready world) :
    link.Late world := by
  intro previous behind
  obtain ⟨value, ended⟩ := ready previous behind
  rw [ended]
  rfl

/-- The law that nothing is written to the trace. -/
def mute : Law where
  allows act := ∀ session line, act ≠ .ask (.record session line)
  assumes _ := True
  covers := True

theorem mute_listeners : mute.AdmitsListeners where
  collects := by simp [mute]
  calls := by simp [mute]
  leaves := by simp [mute]

theorem mute_jobs : mute.AdmitsJobs where
  toAdmitsListeners := mute_listeners
  asks request worked session line equal := by
    cases equal
    exact worked
  fair task answer fair := fair
  performs := by simp [mute]
  performed := by simp [mute]

theorem mute_scripts (role : Role) (suspends : Bool) : mute.AdmitsScripts role suspends where
  toAdmitsListeners := mute_listeners
  asks request scripted session line equal := by
    cases equal
    exact scripted
  adds := by simp [mute]
  works _ body job := job.obeys mute_jobs
  awaits := by simp [mute]
  waits := by simp [mute]

/-- No callable writes to the trace. -/
theorem mute_closed : mute.Closed :=
  fun role callable args _ => callable.process_obeys (mute_scripts role _) args

/-- What a link has written, and what it has left to do. -/
inductive Stage (world : World) (link : Link) : List String → Process → Prop
  | waits {previous : Nat} {name : String} {body : Process} (behind : link.previous = some previous)
      (work : link.work = some (name, body)) (plain : body.Obeys mute) :
      Stage world link [] (waiting previous (follow (opening link.session name body)))
  | joins {previous : Nat} {name : String} {body : Process} (behind : link.previous = some previous)
      (work : link.work = some (name, body)) (plain : body.Obeys mute) :
      Stage world link []
        (.join previous (checking previous (follow (opening link.session name body))))
  | checks {previous : Nat} {name : String} {body : Process}
      (behind : link.previous = some previous) (work : link.work = some (name, body))
      (plain : body.Obeys mute) (ended : (world.outcome? previous).isSome) :
      Stage world link [] (checking previous (follow (opening link.session name body)))
  | opens {name : String} {body : Process} (work : link.work = some (name, body))
      (plain : body.Obeys mute) (ready : link.Ready world) :
      Stage world link [] (opening link.session name body)
  | poisoned {previous : Nat} {failure : Failure} (behind : link.previous = some previous)
      (work : link.work.isSome) (ended : world.outcome? previous = some (.error failure)) :
      Stage world link [] (.done (.error failure))
  | works {name : String} {body rest : Process} (work : link.work = some (name, body))
      (ready : link.Ready world) (plain : rest.Obeys mute) :
      Stage world link [name] (rest.andThen (report link.session))
  | reported {name : String} {body : Process} {fault : Fault} (work : link.work = some (name, body))
      (ready : link.Ready world) :
      Stage world link [name, "error: " ++ fault.message] (.done (.error (.fault fault)))
  | stands {previous : Nat} (behind : link.previous = some previous) (work : link.work = none) :
      Stage world link [] (.join previous (.done (.ok waitResult)))
  | stood {previous : Nat} (behind : link.previous = some previous) (work : link.work = none)
      (ended : (world.outcome? previous).isSome) :
      Stage world link [] (.done (.ok waitResult))

namespace Stage

variable {world later : World} {link : Link} {said : List String}
  {process after : Process}

/-- Outcomes stay, so stages do. -/
theorem congr (stage : Stage world link said process)
    (settled : ∀ number outcome, world.outcome? number = some outcome →
      later.outcome? number = some outcome) : Stage later link said process := by
  have isSome {number : Nat} (ended : (world.outcome? number).isSome) :
      (later.outcome? number).isSome := by
    obtain ⟨outcome, ended⟩ := Option.isSome_iff_exists.1 ended
    rw [settled _ _ ended]
    rfl
  have still (ready : link.Ready world) : link.Ready later := by
    intro previous behind
    obtain ⟨value, ended⟩ := ready previous behind
    exact ⟨value, settled _ _ ended⟩
  cases stage with
  | waits behind work plain => exact .waits behind work plain
  | joins behind work plain => exact .joins behind work plain
  | checks behind work plain ended => exact .checks behind work plain (isSome ended)
  | opens work plain ready => exact .opens work plain (still ready)
  | poisoned behind work ended => exact .poisoned behind work (settled _ _ ended)
  | works work ready plain => exact .works work (still ready) plain
  | reported work ready => exact .reported work (still ready)
  | stands behind work => exact .stands behind work
  | stood behind work ended => exact .stood behind work (isSome ended)

/-- A link that has begun is late, and so is one that has ended. -/
theorem late_of_said (stage : Stage world link said process) (begun : said ≠ []) :
    link.Late world := by
  cases stage with
  | works work ready plain => exact ready.late
  | reported work ready => exact ready.late
  | _ => exact absurd rfl begun

theorem late_of_done {outcome : Outcome} (stage : Stage world link said (.done outcome)) :
    link.Late world := by
  generalize equal : Process.done outcome = process at stage
  have single {previous : Nat} (behind : link.previous = some previous)
      (ended : (world.outcome? previous).isSome) : link.Late world := by
    intro other behind'
    rwa [← Option.some.inj (behind.symm.trans behind')]
  cases stage with
  | waits behind work plain => cases equal
  | joins behind work plain => cases equal
  | checks behind work plain ended => cases equal
  | opens work plain ready => cases equal
  | poisoned behind work ended => exact single behind (by rw [ended]; rfl)
  | works work ready plain => exact ready.late
  | reported work ready => exact ready.late
  | stands behind work => cases equal
  | stood behind work ended => exact single behind ended

/-- Only work does more than to ask and to wait. -/
theorem move {act : Act} (stage : Stage world link said process)
    (moves : Process.Next mute act process after) (active : ∀ request, act ≠ .ask request) (busy : ∀ task, act ≠ .join task) :
    Stage world link said after := by
  cases stage with
  | waits behind work plain => cases moves; exact absurd rfl (active _)
  | joins behind work plain => cases moves; exact absurd rfl (busy _)
  | checks behind work plain ended => cases moves; exact absurd rfl (active _)
  | opens work plain ready => cases moves; exact absurd rfl (active _)
  | poisoned behind work ended => cases moves
  | works work ready plain =>
    rcases moves.of_andThen with ⟨outcome, rfl, reports⟩ | ⟨rest, moves', rfl⟩
    · obtain ⟨fault, rfl, rfl, rfl⟩ := report_act reports
      exact absurd rfl (active _)
    · exact .works work ready (plain.next mute_closed moves' trivial)
  | reported work ready => cases moves
  | stands behind work => cases moves; exact absurd rfl (busy _)
  | stood behind work ended => cases moves

/-- A link goes on where it waited. -/
theorem passes (stage : Stage world link said process) (uncancelled : world.Uncancelled)
    (inside : ∀ previous, link.previous = some previous → previous < world.tasks.length)
    (passes : process.Passes world after) : Stage world link said after := by
  cases passes with
  | refl => exact stage
  | await ended => exact stage.move (.await (uncancelled.plain ended)) (by simp) (by simp)
  | awaitNone beyond => exact stage.move (.await (uncancelled_fault _)) (by simp) (by simp)
  | wait => exact stage.move .wait (by simp) (by simp)
  | yield => exact stage.move .yield (by simp) (by simp)
  | @join task rest ended =>
    generalize equal : Process.join task after = process at stage
    cases stage with
    | waits behind work plain => cases equal
    | joins behind work plain =>
      cases equal
      exact .checks behind work plain (ended (inside _ behind))
    | checks behind work plain ended => cases equal
    | opens work plain ready => cases equal
    | poisoned behind work ended => cases equal
    | works work ready plain =>
      have moves : Process.Next mute (.join task) (Process.join task after) after := .join
      rw [equal] at moves
      rcases moves.of_andThen with ⟨outcome, rfl, reports⟩ | ⟨rest, moves', rfl⟩
      · obtain ⟨fault, _, impossible, _⟩ := report_act reports
        cases impossible
      · exact .works work ready (plain.next mute_closed moves' trivial)
    | reported work ready => cases equal
    | stands behind work =>
      cases equal
      exact .stood behind work (ended (inside _ behind))
    | stood behind work ended => cases equal

/-- A link is answered what it asks for. -/
theorem ask {request : Request} {branch : request.Answer → Process}
    (stage : Stage world link said (.ask request branch)) (uncancelled : world.Uncancelled) :
    Stage world link (said ++ request.line?.toList) (branch (world.respond request).1) := by
  generalize equal : Process.ask request branch = process at stage
  cases stage with
  | @waits previous _ _ behind work plain =>
    cases equal
    rcases ended : world.outcome? previous with _ | (failure | value) <;>
      simp only [World.respond, Request.line?, Option.toList_none, List.append_nil, ended]
    · exact .joins behind work plain
    · exact .poisoned behind (by simp [work]) ended
    · refine .opens work plain fun other behind' => ?_
      rw [← Option.some.inj (behind.symm.trans behind')]
      exact ⟨value, ended⟩
  | joins behind work plain => cases equal
  | @checks previous _ _ behind work plain settled =>
    cases equal
    rcases ended : world.outcome? previous with _ | (failure | value) <;>
      simp only [World.respond, Request.line?, Option.toList_none, List.append_nil, ended]
    · simp [ended] at settled
    · exact .poisoned behind (by simp [work]) ended
    · refine .opens work plain fun other behind' => ?_
      rw [← Option.some.inj (behind.symm.trans behind')]
      exact ⟨value, ended⟩
  | opens work plain ready =>
    cases equal
    exact .works work ready plain
  | poisoned behind work ended => cases equal
  | @works name body rest work ready plain =>
    have moves : Process.Next mute (.ask request) (.ask request branch)
        (branch (world.respond request).1) := .ask (uncancelled.fair request)
    rw [equal] at moves
    rcases moves.of_andThen with ⟨outcome, rfl, reports⟩ | ⟨rest', moves', after⟩
    · obtain ⟨fault, _, asked, after⟩ := report_act reports
      cases asked
      rw [after]
      exact .reported work ready
    · have silent : request.line? = none := by
        cases request with
        | record session line => exact absurd rfl (plain.allowed moves'.act? session line)
        | _ => rfl
      rw [silent, after]
      exact .works work ready (plain.next mute_closed moves' trivial)
  | reported work ready => cases equal
  | stands behind work => cases equal
  | stood behind work ended => cases equal

/-- A link writes for its own session, after its predecessor. -/
theorem record {session : Nat} {line : String} {branch : Unit → Process}
    (stage : Stage world link said (.ask (.record session line) branch)) :
    session = link.session ∧ link.Ready world := by
  generalize equal : Process.ask (.record session line) branch = process at stage
  cases stage with
  | waits behind work plain => cases equal
  | joins behind work plain => cases equal
  | checks behind work plain ended => cases equal
  | opens work plain ready =>
    cases equal
    exact ⟨rfl, ready⟩
  | poisoned behind work ended => cases equal
  | works work ready plain =>
    have moves : Process.Next mute (.ask (.record session line)) (.ask (.record session line) branch)
        (branch ()) := .ask trivial
    rw [equal] at moves
    rcases moves.of_andThen with ⟨outcome, rfl, reports⟩ | ⟨rest', moves', after⟩
    · obtain ⟨fault, _, asked, _⟩ := report_act reports
      cases asked
      exact ⟨rfl, ready⟩
    · exact absurd rfl (plain.allowed moves'.act? session line)
  | reported work ready => cases equal
  | stands behind work => cases equal
  | stood behind work ended => cases equal

theorem uncancelled {outcome : Outcome} (stage : Stage world link said (.done outcome))
    (uncancelled : world.Uncancelled) : Uncancelled outcome := by
  generalize equal : Process.done outcome = process at stage
  cases stage with
  | waits behind work plain => cases equal
  | joins behind work plain => cases equal
  | checks behind work plain ended => cases equal
  | opens work plain ready => cases equal
  | poisoned behind work ended =>
    cases equal
    exact uncancelled.plain ended
  | @works _ _ rest work ready plain =>
    cases rest with
    | done ending =>
      rcases ending with (fault | _) | value
      · cases equal
      · cases plain with
        | stop plain => exact absurd rfl plain
      · cases equal
        exact uncancelled_ok value
    | _ => cases equal
  | reported work ready =>
    cases equal
    exact uncancelled_fault _
  | stands behind work => cases equal
  | stood behind work ended =>
    cases equal
    exact uncancelled_ok _

theorem add {role : Role} {name : String} {body : Process}
    (stage : Stage world link said process) (adds : process.act? = some (.add role name body)) :
    body.Obeys mute := by
  cases stage with
  | @works _ _ rest work ready plain =>
    cases rest with
    | done outcome => rcases outcome with (fault | _) | value <;> cases adds
    | add =>
      cases adds
      exact plain.work trivial
    | _ => cases adds
  | _ => cases adds

/-- A step takes a link from its stage to the next. -/
theorem step (stage : Stage world link said process) (uncancelled : world.Uncancelled)
    (uncancelled' : later.Uncancelled) (wired : world.Wired world.busy) (stepped : world.Stepped later)
    (left : world.process? (.task link.number) = some process)
    (inside : ∀ previous, link.previous = some previous → previous < world.tasks.length)
    (left' : later.process? (.task link.number) = some after) :
    Stage later link (said ++ (world.writes? link.number).toList) after := by
  have old : link.number < world.tasks.length := World.process?_lt wired left
  have settled (number : Nat) (outcome : Outcome) (ended : world.outcome? number = some outcome) :
      later.outcome? number = some outcome := stepped.settled wired ended
  -- What a link does other than to ask writes nothing.
  have moves {act : Act} {before after : Process}
      (running : world.current = some (.task link.number, before)) (moves : Process.Next mute act before after)
      (active : ∀ request, act ≠ .ask request) (busy : ∀ task, act ≠ .join task) :
      Stage later link (said ++ (world.writes? link.number).toList) after := by
    have acts := World.act?_of_running running moves.act?
    obtain rfl : before = process :=
      Option.some.inj ((World.process?_of_running running).symm.trans left)
    have silent : world.writes? link.number = none := by
      unfold World.writes?
      rw [acts]
      cases act with
      | ask request => exact absurd rfl (active request)
      | _ => rfl
    rw [silent]
    simpa using (stage.move moves active busy).congr settled
  cases stepped.evolves left' with
  | @passes before _ left₀ passes quiet =>
    obtain rfl : before = process := Option.some.inj (left₀.symm.trans left)
    have silent : world.writes? link.number = none := by
      unfold World.writes?
      split
      · rename_i speaker request acts
        rw [if_neg]
        rintro rfl
        exact (quiet _ acts).elim
      · rfl
    rw [silent]
    have stage := stage.congr settled
    simpa using stage.passes uncancelled' (fun previous behind =>
      Nat.lt_of_lt_of_le (inside previous behind) stepped.length) passes
  | @asks request _ running =>
    have acts := World.act?_of_running running rfl
    obtain rfl := Option.some.inj ((World.process?_of_running running).symm.trans left)
    have writes : world.writes? link.number = request.line? := by
      unfold World.writes?
      rw [acts]
      exact if_pos rfl
    rw [writes]
    exact (stage.ask uncancelled).congr settled
  | calls running => exact moves running .call (by simp) (by simp)
  | leaves running => exact moves running .leave (by simp) (by simp)
  | adds running => exact moves running (.add fun _ _ => trivial) (by simp) (by simp)
  | added adds looping new =>
    exact absurd (Owner.task.inj new) (Nat.ne_of_lt old)
  | stands recovers tail unsettled looping new =>
    exact absurd (Owner.task.inj new) (Nat.ne_of_lt old)
  | told caller idle => cases caller

end Stage

end FeatureRunner
