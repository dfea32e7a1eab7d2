import FeatureRunner.Proofs.Actor.Dispatch
import FeatureRunner.Proofs.Recorder.Segment
import FeatureRunner.Proofs.World.Loop

/-!
The block of a dispatch. The three tasks of a dispatch are behind each other in the chain, so what
they write to the trace is one block, at the place of the tasks in the order in which all tasks were
added. The first performs the action and tells of its failure, the second tells of its success, and
the third has its result.

Main statement: `dispatch_makes_block`.
-/

namespace FeatureRunner
open FeatureRunner.World FeatureRunner.Actor

/-! ## What the actor tells -/

/-- What the actor tells of an action that has been performed. -/
def Act.news? : Act → Option (String × List Value)
  | .ask (.subscribers .actor event args) => if event = stepStarted then none else some (event, args)
  | _ => none

/-- What a task has told in the actor's place. -/
def World.History.news (passed : History) (number : Nat) : List (String × List Value) :=
  (passed.deeds (.task number)).filterMap Act.news?

/-- The law that the actor tells of beginnings only. -/
def reticent : Law where
  allows
    | .ask (.subscribers .actor event _) => event = stepStarted
    | .call role _ _ => role ≠ .actor
    | _ => True
  assumes _ := True
  covers := False

theorem reticent_listeners : reticent.AdmitsListeners where
  collects _ _ _ _ _ _ _ _ := trivial
  calls _ _ _ := nofun
  leaves _ := trivial

theorem reticent_scripts {role : Role} (apart : role ≠ .actor) (suspends : Bool) :
    reticent.AdmitsScripts role suspends where
  toAdmitsListeners := reticent_listeners
  asks request scripted := by
    cases request with
    | subscribers speaker event args =>
      rcases scripted with rfl | ⟨rfl, rfl⟩
      · cases speaker with
        | actor => exact absurd rfl apart
        | _ => trivial
      · rfl
    | _ => trivial
  adds _ _ _ := trivial
  works covers := covers.elim
  awaits _ _ _ _ _ _ := trivial
  waits _ := ⟨fun _ => trivial, trivial⟩

theorem reticent_actions : reticent.AdmitsActions where
  asks request handled := by
    cases request with
    | subscribers => exact handled.elim
    | _ => trivial
  performs _ _ := nofun
  performed _ := trivial

theorem reticent_plain : reticent.Plain where
  closed _ callable args apart := callable.process_obeys (reticent_scripts apart _) args
  assumes _ := trivial
  grants _ _ fair := fair
  numbers _ := trivial

theorem news_of_reticent {deeds : List Act} (allowed : ∀ act ∈ deeds, reticent.allows act) :
    deeds.filterMap Act.news? = [] := by
  refine List.filterMap_eq_nil_iff.2 fun act member => ?_
  have allowed := allowed act member
  unfold Act.news?
  split
  · exact if_pos allowed
  · rfl

theorem news_of_looks {deeds : List Act} (looks : ∀ act ∈ deeds, act.Looks) :
    deeds.filterMap Act.news? = [] := by
  refine news_of_reticent fun act member => ?_
  have looks := looks act member
  unfold Act.Looks at looks
  split at looks
  · trivial
  · exact looks.elim

theorem news_of_report {session : Nat} {outcome : Outcome} {told : List Act} {left : Process}
    (reports : (Recorder.report session outcome).Performs told left) :
    told.filterMap Act.news? = [] := by
  rcases outcome with (fault | _) | value
  · rcases reports.of_ask with ⟨rfl, _⟩ | ⟨_, rest, _, rfl, further⟩
    · rfl
    · rw [further.of_done.1]
      rfl
  · rw [reports.of_done.1]
    rfl
  · rw [reports.of_done.1]
    rfl

theorem news_of_resultOf {task : Nat} {deeds : List Act} {outcome : Outcome}
    (performs : (Recorder.resultOf task).toProcess.Performs deeds (.done outcome)) :
    deeds.filterMap Act.news? = [] := by
  rw [Program.toProcess, Recorder.resultOf_apply] at performs
  rcases performs.of_checking with ⟨_, same⟩ | ⟨_, rest, rfl, further⟩
  · cases same
  · rw [further.of_done.1]
    rfl

/-! ## What the tasks of a dispatch do -/

/-- The actions that are dispatched: a named one by `do`, and a method by its name. -/
inductive Actor.Dispatches : String → List Value → Program Value → Prop
  | action (action : Value) (args : List Value) :
      Dispatches "do" (action :: args) (performAction action args)
  | method (name : String) (args : List Value) : Dispatches name args (performMethod name args)

section Bodies

variable {name : String} {args : List Value} {action : Program Value} {step : Value}
  {deeds : List Act} {outcome : Outcome}

theorem Actor.Dispatches.uniform (dispatches : Dispatches name args action) : action.Uniform := by
  cases dispatches with
  | action action args => exact performAction_uniform action args
  | method name args => exact performMethod_uniform name args

theorem Actor.Dispatches.obeys (dispatches : Dispatches name args action) : action.Obeys reticent := by
  cases dispatches with
  | action action args => exact performAction_obeys reticent_actions action args
  | method name args => exact performMethod_obeys reticent_actions name args

theorem performStep_does {law : Law} (admits : law.AdmitsListeners) (plain : law.Plain)
    (hears : ∀ kind args, law.allows (.ask (.collect kind args))) (uniform : action.Uniform)
    (uncancelled : ∀ own, ¬action.toProcess.Performs own (.done (.error .cancelled)))
    (performs : (performStep step action).toProcess.Performs deeds (.done outcome)) :
    (∃ value, outcome = .ok value ∧ action.toProcess.Performs deeds (.done (.ok value))) ∨
      ∃ own heard raised fault, outcome = .error (.fault fault) ∧
        deeds = own ++ .ask (.subscribers .actor stepFailed [step, .fault raised]) :: heard ∧
        action.toProcess.Performs own (.done (.error (.fault raised))) ∧
        (∀ act ∈ heard, law.allows act) ∧
        (fault = raised ∨ heard.getLast? = some (.leave .listener (.error (.fault fault)))) := by
  obtain ⟨result, own, rest, ends, ahead, rfl⟩ := uniform.does performs
  match result with
  | .error .cancelled => exact absurd ends (uncancelled own)
  | .ok value =>
    obtain ⟨rfl, same⟩ := Process.Performs.of_done ahead
    cases same
    exact .inl ⟨value, rfl, by simpa using ends⟩
  | .error (.fault raised) =>
    right
    obtain ⟨told, _, after, ⟨heard, rfl, plain, allowed, last⟩, ending, rfl⟩ :=
      emitFor_does [step, .fault raised] admits plain (fun kind => hears kind _) .actor stepFailed ahead
    match told with
    | .ok () =>
      obtain ⟨rfl, same⟩ := Process.Performs.of_done ending
      cases same
      exact ⟨own, heard, raised, raised, rfl, by simp, ends, allowed, .inl rfl⟩
    | .error .cancelled => exact absurd rfl plain
    | .error (.fault fault) =>
      obtain ⟨rfl, same⟩ := Process.Performs.of_done ending
      cases same
      exact ⟨own, heard, raised, fault, rfl, by simp, ends, allowed, .inr (last _ rfl)⟩

theorem performStep_performs (dispatches : Dispatches name args action)
    (performs : (performStep step action).toProcess.Performs deeds (.done outcome)) :
    (∃ value, outcome = .ok value ∧ action.toProcess.Performs deeds (.done (.ok value)) ∧
        deeds.filterMap Act.news? = []) ∨
      ∃ own heard raised fault, outcome = .error (.fault fault) ∧
        deeds = own ++ .ask (.subscribers .actor stepFailed [step, .fault raised]) :: heard ∧
        action.toProcess.Performs own (.done (.error (.fault raised))) ∧
        own.filterMap Act.news? = [] ∧ heard.filterMap Act.news? = [] ∧
        (fault = raised ∨ heard.getLast? = some (.leave .listener (.error (.fault fault)))) := by
  have silent {own : List Act} {process : Process} (acted : action.toProcess.Performs own process) :
      own.filterMap Act.news? = [] :=
    news_of_reticent (dispatches.obeys.toProcess.performs reticent_plain acted).2
  rcases performStep_does reticent_listeners reticent_plain (fun _ _ => trivial) dispatches.uniform
      (fun own => dispatches.obeys.toProcess.uncancelled reticent_plain) performs with
    ⟨value, rfl, acted⟩ | ⟨own, heard, raised, fault, rfl, rfl, acted, allowed, comes⟩
  · exact .inl ⟨value, rfl, acted, silent acted⟩
  · exact .inr ⟨own, heard, raised, fault, rfl, rfl, acted, silent acted, news_of_reticent allowed, comes⟩

theorem passing_performs (performs : (passing step).toProcess.Performs deeds (.done outcome)) :
    ∃ heard, deeds = .ask (.subscribers .actor stepPassed [step]) :: heard ∧
      heard.filterMap Act.news? = [] ∧ (outcome = .ok .null ∨ ∃ fault,
        outcome = .error (.fault fault) ∧
        heard.getLast? = some (.leave .listener (.error (.fault fault)))) := by
  obtain ⟨told, _, after, ⟨heard, rfl, plain, allowed, last⟩, ending, rfl⟩ :=
    emitFor_does [step] reticent_listeners reticent_plain (fun _ => trivial) .actor stepPassed performs
  have silent := news_of_reticent allowed
  match told with
  | .ok () =>
    obtain ⟨rfl, same⟩ := Process.Performs.of_done ending
    cases same
    exact ⟨heard, by simp, silent, .inl rfl⟩
  | .error .cancelled => exact absurd rfl plain
  | .error (.fault fault) =>
    obtain ⟨rfl, same⟩ := Process.Performs.of_done ending
    cases same
    exact ⟨heard, by simp, silent, .inr ⟨fault, rfl, last _ rfl⟩⟩

end Bodies

/-! ## Links that have ended -/

/-- What a task writes behind its name when it ends. -/
def complaint : Outcome → List String
  | .error (.fault fault) => ["error: " ++ fault.message]
  | _ => []

section Links

variable {clock : Calendar.Moment} {passed : History} {world : World} {link : Link} {name : String}
  {body : Process} {outcome : Outcome}

/-- What a link that has begun and ended has done, told and written. -/
theorem Performed.finished (performed : Performed passed world) (member : link ∈ passed.links)
    (work : link.work = some (name, body)) (begun : passed.Begun link.number)
    (ended : world.outcome? link.number = some outcome) :
    ∃ asked own told, passed.deeds (.task link.number) = asked ++ own ++ told ∧
      body.Performs own (.done outcome) ∧ passed.news link.number = own.filterMap Act.news? ∧
      passed.said link.number = name :: complaint outcome := by
  have serial := performed.serial
  have left := process?_of_outcome serial.wired ended
  obtain @⟨_, _, _, asked, own, told, work', looks, did, performs, reports, _⟩ :=
    performed.came member begun left
  cases work.symm.trans work'
  refine ⟨asked ++ [.ask (.record link.session name)], own, told, by simpa using did, performs, ?_, ?_⟩
  · have silent : Act.news? (.ask (.record link.session name)) = none := rfl
    rw [History.news, did]
    simp [news_of_looks looks, news_of_report reports, silent]
  · rcases serial.said_cases member with silent | ⟨_, _, work', said⟩
    · exact absurd silent begun
    · cases work.symm.trans work'
      rw [said]
      rcases outcome with (fault | _) | value <;> simp [World.raised?, left, complaint]

/-- A link that has ended without having begun has failed with the task before it. -/
theorem Performed.skipped (performed : Performed passed world) (member : link ∈ passed.links)
    (work : link.work.isSome) (unbegun : ¬passed.Begun link.number)
    (ended : world.outcome? link.number = some outcome) :
    ∃ previous fault, link.previous = some previous ∧ outcome = .error (.fault fault) ∧
      world.outcome? previous = some (.error (.fault fault)) := by
  have serial := performed.serial
  rcases (serial.staged link member _ (process?_of_outcome serial.wired ended)).of_done with
    ⟨begun, _⟩ | ⟨previous, behind, ⟨failure, _, rfl, failed⟩ | ⟨idle, _⟩⟩
  · exact absurd begun unbegun
  · match failure with
    | .fault fault => exact ⟨previous, fault, behind, rfl, failed⟩
    | .cancelled => exact absurd failed (serial.uncancelled previous)
  · simp [idle] at work

theorem Performed.quiet (performed : Performed passed world) (member : link ∈ passed.links)
    (unbegun : ¬passed.Begun link.number) :
    passed.news link.number = [] ∧ passed.said link.number = [] :=
  ⟨news_of_looks (performed.looks member unbegun), by simpa [History.Begun] using unbegun⟩

/-- A link behind one that has failed fails as it did, without having begun. -/
theorem Performed.spoilt (performed : Performed passed world) (member : link ∈ passed.links)
    (work : link.work.isSome) {previous : Nat} {fault : Fault} (behind : link.previous = some previous)
    (failed : world.outcome? previous = some (.error (.fault fault)))
    (settled : (world.outcome? link.number).isSome) :
    world.outcome? link.number = some (.error (.fault fault)) ∧
      passed.news link.number = [] ∧ passed.said link.number = [] := by
  have doomed : world.Doomed previous fault := fun outcome ended =>
    Option.some.inj (ended.symm.trans failed)
  obtain ⟨unbegun, doomed⟩ := performed.serial.doomed_next member work behind doomed
  obtain ⟨outcome, ended⟩ := Option.isSome_iff_exists.1 settled
  rw [ended, doomed outcome ended]
  exact ⟨rfl, performed.quiet member unbegun⟩

/-- A link behind one that has ended well has begun. -/
theorem Performed.begun_of_ok (performed : Performed passed world) (member : link ∈ passed.links)
    (work : link.work.isSome) {previous : Nat} {value : Value} (behind : link.previous = some previous)
    (well : world.outcome? previous = some (.ok value))
    (ended : world.outcome? link.number = some outcome) : passed.Begun link.number := by
  by_contra unbegun
  obtain ⟨other, fault, behind', _, failed⟩ := performed.skipped member work unbegun ended
  cases behind.symm.trans behind'
  rw [well] at failed
  cases failed

end Links

/-! ## The result -/

section Results

variable {clock : Calendar.Moment} {passed early late : History} {world past : World}
  {link before : Link} {name : String} {awaited : Nat} {outcome : Outcome}

theorem mem_of_lt (earlier : Run quietly (World.initial clock) early past) {next : World}
    (moved : past.step? = some next) (further : Run quietly next late world)
    (member : link ∈ History.links (early ++ past :: late)) (old : link.number < past.tasks.length) :
    link ∈ early.links := by
  have late : Run quietly past ([past] ++ late) world := (Run.refl.step moved).trans further
  have beyond := (earlier.links_beyond late).2
  rw [← List.singleton_append] at member
  rw [History.links_join, List.mem_append] at member
  rcases member with inside | made
  · exact inside
  · exact absurd old (Nat.not_lt_of_le (beyond link made))

/-- A task that is to have the result of another asks for it when it has begun, and goes on with it. -/
theorem Performed.asking (performed : Performed early past) (member : link ∈ early.links)
    (work : link.work = some (name, (Recorder.resultOf awaited).toProcess))
    (behind : link.previous = some before.number) (apart : awaited ≠ before.number)
    {branch : Option Outcome → Process}
    (running : past.current = some (.task link.number, .ask (.outcome awaited) branch)) :
    link.Ready past ∧ ∀ value, branch (some (.ok value)) = .done (.ok value) := by
  have left := process?_of_running running
  have stage := performed.serial.staged link member _ left
  have course := performed.course member left
  have said := History.said_eq early link.number
  have begun : link.Ready past ∧ early.said link.number ≠ [] := by
    generalize early.said link.number = said at stage
    generalize asks : Process.ask (.outcome awaited) branch = process at stage
    cases stage with
    | waits behind' | checks behind' =>
      cases asks
      exact absurd (Option.some.inj (behind'.symm.trans behind)) apart
    | works _ ready => exact ⟨ready, by simp⟩
    | _ => cases asks
  refine ⟨begun.1, ?_⟩
  generalize early.deeds (.task link.number) = deeds at course said
  generalize asks : Process.ask (.outcome awaited) branch = process at course
  cases course with
  | looks looks => exact absurd (said.trans (Act.line?_of_looks looks)) begun.2
  | works work' looks performs =>
    cases work.symm.trans work'
    rw [Program.toProcess, Recorder.resultOf_apply] at performs
    rcases performs.of_checking with ⟨_, rfl⟩ | ⟨outcome, _, _, further⟩
    · cases asks
      exact fun _ => rfl
    · cases further.of_done.2
      rcases outcome with (fault | _) | value <;> cases asks
  | @came _ _ _ _ _ _ outcome work' looks performs reports =>
    rcases outcome with (fault | _) | value
    · rcases reports.of_ask with ⟨_, rfl⟩ | ⟨_, _, _, _, further⟩
      · cases asks
      · cases asks.trans further.of_done.2
    · cases asks.trans reports.of_done.2
    · cases asks.trans reports.of_done.2

theorem result_of_begun (run : Run quietly (World.initial clock) passed world)
    (member : link ∈ passed.links) (member' : before ∈ passed.links)
    (work : link.work = some (name, (Recorder.resultOf awaited).toProcess)) (work' : before.work.isSome)
    (behind : link.previous = some before.number) (behind' : before.previous = some awaited)
    (apart : awaited ≠ before.number) (begun : passed.Begun link.number)
    (ended : world.outcome? link.number = some outcome) :
    ∃ value, outcome = .ok value ∧ world.outcome? awaited = some (.ok value) := by
  have performed := Performed.of_run run
  have serial := performed.serial
  -- When it has begun it has asked for the outcome.
  have asked : .ask (.outcome awaited) ∈ passed.deeds (.task link.number) := by
    obtain @⟨_, _, _, asked, own, told, found, looks, did, performs, _⟩ :=
      performed.came member begun (process?_of_outcome serial.wired ended)
    cases work.symm.trans found
    rw [Program.toProcess, Recorder.resultOf_apply] at performs
    rcases performs.of_checking with ⟨_, same⟩ | ⟨_, rest, rfl, _⟩
    · cases same
    · simp [did]
  obtain ⟨past, inside, deed⟩ := List.mem_filterMap.1 asked
  obtain ⟨early, late, rfl⟩ := List.append_of_mem inside
  obtain ⟨earlier, next, moved, further⟩ := run.split
  obtain ⟨process, running, asks⟩ := running_of_act? (World.act?_of_deed? deed)
  cases process with
  | ask request branch =>
    cases asks
    have performed' := Performed.of_run earlier
    have wired := performed'.serial.wired
    have old := process?_lt wired (process?_of_running running)
    have older := ((serial.follows link member).anchored _ behind).1
    have here := mem_of_lt earlier moved further member old
    have here' := mem_of_lt earlier moved further member' (Nat.lt_trans older old)
    obtain ⟨ready, goes⟩ := performed'.asking here work behind apart running
    -- The task between the two has ended well, so the other had ended well before it.
    obtain ⟨value, well⟩ : ∃ value, past.outcome? awaited = some (.ok value) := by
      obtain ⟨_, well⟩ := ready _ behind
      have stage := performed'.serial.staged before here' _ (process?_of_outcome wired well)
      rcases stage.of_done with ⟨_, _, ready'⟩ | ⟨_, _, ⟨_, _, failed, _⟩ | ⟨idle, _⟩⟩
      · exact ready' awaited behind'
      · cases failed
      · simp [idle] at work'
    have well' := (step?_stepped wired moved).settled wired well
    have serial' := performed'.serial.step moved
    have course : keeping.Course (early ++ [past]) next (early ++ [past] ++ late) world :=
      .of_run _ further fun _ _ => trivial
    have left : next.process? (.task link.number) = some (.done (.ok value)) := by
      rw [step?_of_running running, runNode_ask, Option.some.injEq] at moved
      subst moved
      rw [process?_proceed, if_pos rfl, ← goes value, ← well]
      rfl
    have safe : keeping.Safe link.number (fun outcome _ _ => outcome = .ok value) (early ++ [past]) next :=
      Setting.Safe.of_done ((Setting.Lasts.const True).kept fun _ _ waits => waits)
        (fun _ _ => rfl) serial' trivial left
    have lasts : keeping.Lasts link.number (fun _ => True) fun _ world =>
      world.outcome? awaited = some (.ok value) := .outcome awaited _
    exact ⟨value, safe _ _ course outcome ended, course.lasts lasts serial' well'⟩
  | _ => cases asks

end Results

/-! ## Blocks -/

/-- The lines of a dispatch whose tasks have ended, what the actor has told of it, and the outcome of
the task that it has come back with. -/
inductive Block (passed : History) (world : World) (line : String) (step : Value) (action : Process)
    (first second third : Link) : List String → Prop
  /-- An earlier task of the segment has failed. -/
  | skipped {previous : Nat} {fault : Fault} (behind : first.previous = some previous)
      (failed : world.outcome? previous = some (.error (.fault fault)))
      (silent : ∀ link ∈ [first, second, third], passed.news link.number = [])
      (result : world.outcome? third.number = some (.error (.fault fault))) :
      Block passed world line step action first second third []
  /-- The action has raised a fault, and a listener that was told of it may have raised another. -/
  | failed {asked own heard told : List Act} {raised fault : Fault}
      (did : passed.deeds (.task first.number) = asked ++
        (own ++ .ask (.subscribers .actor stepFailed [step, .fault raised]) :: heard) ++ told)
      (performs : action.Performs own (.done (.error (.fault raised))))
      (comes : fault = raised ∨ heard.getLast? = some (.leave .listener (.error (.fault fault))))
      (news : passed.news first.number = [(stepFailed, [step, .fault raised])])
      (silent : ∀ link ∈ [second, third], passed.news link.number = [])
      (result : world.outcome? third.number = some (.error (.fault fault))) :
      Block passed world line step action first second third [line, "error: " ++ fault.message]
  /-- A listener has raised a fault that was told of the success. -/
  | refused {own asked heard told : List Act} {value : Value} {fault : Fault}
      (performs : action.Performs own (.done (.ok value)))
      (did : passed.deeds (.task second.number) =
        asked ++ .ask (.subscribers .actor stepPassed [step]) :: heard ++ told)
      (comes : heard.getLast? = some (.leave .listener (.error (.fault fault))))
      (news : passed.news second.number = [(stepPassed, [step])])
      (silent : ∀ link ∈ [first, third], passed.news link.number = [])
      (result : world.outcome? third.number = some (.error (.fault fault))) :
      Block passed world line step action first second third
        [line, "step passed", "error: " ++ fault.message]
  | succeeded {own : List Act} {value : Value} (performs : action.Performs own (.done (.ok value)))
      (news : passed.news second.number = [(stepPassed, [step])])
      (silent : ∀ link ∈ [first, third], passed.news link.number = [])
      (result : world.outcome? third.number = some (.ok value)) :
      Block passed world line step action first second third [line, "step passed", "return result"]

/-- How the two tasks behind a performed action go by its outcome, with the lines that they write. -/
inductive Sequel (passed : History) (world : World) (step : Value) (second third : Link) :
    Outcome → List String → Prop
  | failed {fault : Fault} (silent : ∀ link ∈ [second, third], passed.news link.number = [])
      (result : world.outcome? third.number = some (.error (.fault fault))) :
      Sequel passed world step second third (.error (.fault fault)) []
  | refused {asked heard told : List Act} {value : Value} {fault : Fault}
      (did : passed.deeds (.task second.number) =
        asked ++ .ask (.subscribers .actor stepPassed [step]) :: heard ++ told)
      (comes : heard.getLast? = some (.leave .listener (.error (.fault fault))))
      (news : passed.news second.number = [(stepPassed, [step])])
      (silent : passed.news third.number = [])
      (result : world.outcome? third.number = some (.error (.fault fault))) :
      Sequel passed world step second third (.ok value) ["step passed", "error: " ++ fault.message]
  | succeeded {value : Value} (news : passed.news second.number = [(stepPassed, [step])])
      (silent : passed.news third.number = [])
      (result : world.outcome? third.number = some (.ok value)) :
      Sequel passed world step second third (.ok value) ["step passed", "return result"]

section Blocks

variable {clock : Calendar.Moment} {passed : History} {world : World} {name line : String}
  {args : List Value} {action : Program Value} {step : Value} {first second third : Link}

theorem sequel_of_settled (run : Run quietly (World.initial clock) passed world)
    (inside : ∀ link ∈ [second, third], link ∈ passed.links)
    (passes : second.work = some ("step passed", (passing step).toProcess))
    (results : third.work = some ("return result", (Recorder.resultOf first.number).toProcess))
    (behind : second.previous = some first.number) (behind' : third.previous = some second.number)
    (settled : (world.outcome? third.number).isSome) :
    ∃ outcome, world.outcome? first.number = some outcome ∧
      Sequel passed world step second third outcome
        (passed.said second.number ++ passed.said third.number) := by
  have performed := Performed.of_run run
  have serial := performed.serial
  have member := inside second (by simp)
  have member' := inside third (by simp)
  have settled' := serial.late_of_settled member' settled _ behind'
  obtain ⟨outcome, ended⟩ :=
    Option.isSome_iff_exists.1 (serial.late_of_settled member settled' _ behind)
  refine ⟨outcome, ended, ?_⟩
  match outcome with
  | .error .cancelled => exact absurd ended (serial.uncancelled first.number)
  | .error (.fault fault) =>
    obtain ⟨failed, quiet, mum⟩ :=
      performed.spoilt member (by simp [passes]) behind ended settled'
    obtain ⟨failed', quiet', mum'⟩ :=
      performed.spoilt member' (by simp [results]) behind' failed settled
    rw [mum, mum']
    exact .failed (by simp [quiet, quiet']) failed'
  | .ok value =>
    obtain ⟨outcome', ended'⟩ := Option.isSome_iff_exists.1 settled'
    have begun := performed.begun_of_ok member (by simp [passes]) behind ended ended'
    obtain ⟨asked, own, told, did, ends, news, said⟩ := performed.finished member passes begun ended'
    obtain ⟨heard, rfl, silent, comes⟩ := passing_performs ends
    have told : passed.news second.number = [(stepPassed, [step])] := by
      have told : Act.news? (.ask (.subscribers .actor stepPassed [step])) =
        some (stepPassed, [step]) := rfl
      rw [news]
      simp [silent, told]
    rcases comes with rfl | ⟨fault, rfl, comes⟩
    · obtain ⟨outcome'', ended''⟩ := Option.isSome_iff_exists.1 settled
      have begun' := performed.begun_of_ok member' (by simp [results]) behind' ended' ended''
      have apart := Nat.ne_of_lt ((serial.follows second member).anchored _ behind).1
      obtain ⟨_, rfl, same⟩ := result_of_begun run member' member results (by simp [passes])
        behind' behind apart begun' ended''
      cases ended.symm.trans same
      obtain ⟨_, own', _, _, ends', news', said'⟩ := performed.finished member' results begun' ended''
      rw [said, said']
      refine .succeeded told ?_ ended''
      rw [news', news_of_resultOf ends']
    · obtain ⟨failed, quiet, mum⟩ :=
        performed.spoilt member' (by simp [results]) behind' ended' settled
      rw [said, mum]
      exact .refused did comes told quiet failed

theorem block_of_settled (run : Run quietly (World.initial clock) passed world)
    (dispatches : Dispatches name args action) (inside : ∀ link ∈ [first, second, third], link ∈ passed.links)
    (performs : first.work = some (line, (performStep step action).toProcess))
    (passes : second.work = some ("step passed", (passing step).toProcess))
    (results : third.work = some ("return result", (Recorder.resultOf first.number).toProcess))
    (behind : second.previous = some first.number) (behind' : third.previous = some second.number)
    (settled : (world.outcome? third.number).isSome) :
    Block passed world line step action.toProcess first second third
      (passed.said first.number ++ passed.said second.number ++ passed.said third.number) := by
  have performed := Performed.of_run run
  have member := inside first (by simp)
  obtain ⟨outcome, ended, sequel⟩ := sequel_of_settled run
    (fun link member => inside link (List.mem_cons_of_mem _ member)) passes results behind behind' settled
  rw [List.append_assoc]
  generalize passed.said second.number ++ passed.said third.number = lines at sequel ⊢
  by_cases begun : passed.Begun first.number
  · obtain ⟨asked, own, told, did, ends, news, said⟩ := performed.finished member performs begun ended
    rw [said]
    rcases performStep_performs dispatches ends with
      ⟨value, rfl, acted, silent⟩ | ⟨own, heard, raised, fault, rfl, rfl, acted, silent, silent', comes⟩
    · rw [silent] at news
      cases sequel with
      | refused did comes told quiet result =>
        exact .refused acted did comes told (by simp [news, quiet]) result
      | succeeded told quiet result => exact .succeeded acted told (by simp [news, quiet]) result
    · cases sequel with
      | failed quiet result =>
        refine .failed did acted comes ?_ quiet result
        have told : Act.news? (.ask (.subscribers .actor stepFailed [step, .fault raised])) =
            some (stepFailed, [step, .fault raised]) := rfl
        rw [news]
        simp [silent, silent', told]
  · obtain ⟨previous, fault, before, rfl, failed⟩ :=
      performed.skipped member (by simp [performs]) begun ended
    obtain ⟨quiet, mum⟩ := performed.quiet member begun
    rw [mum]
    cases sequel with
    | failed quiet' result => exact .skipped before failed (List.forall_mem_cons.2 ⟨quiet, quiet'⟩) result

end Blocks

/-- The lines of three tasks stand together in the trace, at the place of the tasks among all that were
added in the session. -/
def Placed (passed : History) (world : World) (first second third : Link) (lines : List String) : Prop :=
  ∃ earlier later : List Link,
    passed.links.filter (·.session = world.recorder.session) =
      earlier ++ [first, second, third] ++ later ∧
    world.recorder.trace = (earlier.flatMap fun link => passed.said link.number) ++ lines ++
      later.flatMap fun link => passed.said link.number

section Dispatches

variable {clock : Calendar.Moment} {owner : Owner} {role : Role} {name line : String}
  {args : List Value} {action : Program Value} {next : Except Failure Nat → Process}
  {before passed : History} {start world : World} {first second third : Link}

theorem Returned.links
    (returned : Returned owner role name args action next start passed world line first second third) :
    second.session = first.session ∧ third.session = first.session ∧
      ∃ early late : History, passed.links = early.links ++ [first, second, third] ++ late.links := by
  obtain @⟨early, late, _, _, _, _, _, _, _, _, _, rfl, told, performs, passes, results, _⟩ := returned
  have session := passes.session.trans performs.session'
  refine ⟨session, (results.session.trans passes.session').trans session, early, late, ?_⟩
  simp [History.links, performs.made, passes.made, results.made]

theorem Returned.inside
    (returned : Returned owner role name args action next start passed world line first second third) :
    ∀ link ∈ [first, second, third], link ∈ passed.links := by
  obtain ⟨_, _, early, late, links⟩ := returned.links
  rw [links]
  exact fun link member => List.mem_append_left _ (List.mem_append_right _ member)

theorem Returned.block (earlier : Run quietly (World.initial clock) before start)
    (dispatches : Dispatches name args action) (run : Run courteously start passed world)
    (returned : Returned owner role name args action next start passed world line first second third)
    (settled : (world.outcome? third.number).isSome) :
    Block (before ++ passed) world line (stepRecord name args) action.toProcess first second third
      (History.said (before ++ passed) first.number ++ History.said (before ++ passed) second.number ++
        History.said (before ++ passed) third.number) := by
  have inside (link : Link) (member : link ∈ [first, second, third]) :=
    History.mem_links_right before (returned.inside link member)
  obtain ⟨known, split, told, performs, passes, results, _⟩ := returned
  exact block_of_settled (earlier.trans run.quiet) dispatches inside performs.work passes.work
    results.work (passes.previous.trans performs.tail) (results.previous.trans passes.tail) settled

theorem Returned.placed (earlier : Run quietly (World.initial clock) before start)
    (run : Run courteously start passed world)
    (returned : Returned owner role name args action next start passed world line first second third)
    (running : world.recorder.running = true) (present : first.session = world.recorder.session) :
    Placed (before ++ passed) world first second third
      (History.said (before ++ passed) first.number ++ History.said (before ++ passed) second.number ++
        History.said (before ++ passed) third.number) := by
  have whole := earlier.trans run.quiet
  obtain ⟨same, same', early, late, links⟩ := returned.links
  have split : (History.links (before ++ passed)).filter (·.session = world.recorder.session) =
      (before.links ++ early.links).filter (·.session = world.recorder.session) ++
        [first, second, third] ++ late.links.filter (·.session = world.recorder.session) := by
    simp [History.links_join, links, present, same, same']
  refine ⟨_, _, split, ?_⟩
  rw [(Heard.of_run whole).running running, (Serial.of_run whole).spoken, split]
  simp

/-- In every run of the loop, whoever dispatches an action and wherever: as long as the dispatch is
not at hand any more, it has come back with a fault and has added nothing, or it has told of its
beginning and then added its three tasks. When these have ended they have written a block, and as
long as the recorder runs the block is in the trace at the place of the tasks. -/
theorem dispatch_makes_block (earlier : Run quietly (World.initial clock) before start)
    (dispatches : Dispatches name args action)
    (running : start.current = some (owner, dispatch role name args action next))
    (run : Run courteously start passed world) :
    (world.AtHand owner ∧ ∀ past ∈ passed, past.AtHand owner) ∨
    Raised owner name args next start passed world ∨
    ∃ line first second third,
      Returned owner role name args action next start passed world line first second third ∧
      ((world.outcome? third.number).isSome → ∃ lines,
        Block (before ++ passed) world line (stepRecord name args) action.toProcess first second third
          lines ∧
        (world.recorder.running = true → first.session = world.recorder.session →
          Placed (before ++ passed) world first second third lines)) := by
  rcases dispatch_cases earlier running run with inside | raised | ⟨line, first, second, third, returned⟩
  · exact .inl inside
  · exact .inr (.inl raised)
  · refine .inr (.inr ⟨line, first, second, third, returned, fun settled => ?_⟩)
    exact ⟨_, returned.block earlier dispatches run settled, returned.placed earlier run⟩

end Dispatches

/-- Begins a session and dispatches an action. -/
def greet : Program Value := do
  Recorder.call .start
  let _ ← dispatch .outside "greet" [] (performMethod "greet" [])
  return .null

theorem greet_mute : greet.Obeys mute := by
  refine .bind (.bind (.ask (by simp [mute])) fun _ => .ofExcept _) fun _ => ?_
  refine .bind ((dispatch_ensures (mute_scripts .outside false) "greet" [] fun step => ?_).weaken
    fun _ known => known.1) fun _ => .pure _
  exact .method step "greet" []

/-- A loop with a helper whose method gives way, where its action is about to be dispatched. -/
def greetingWorld : World :=
  { World.initial ⟨0, none⟩ with
    looping := true
    container := { Container.initial with helpers := [(.text "host", .helper "host" 0)] }
    readyHelpers := [[("greet", .script "greet" ⟨[], 0, true, []⟩ true false 0 [.yield 1])]]
    current := some (.caller, greet.toProcess) }

theorem greetingWorld_run : Run quietly (World.initial ⟨0, none⟩) [] greetingWorld := by
  have hosted : Run quietly (World.initial ⟨0, none⟩) [] { greetingWorld with current := none } :=
    Run.refl.between (.outside (.alters rfl))
  exact hosted.between (.outside (.enters greet_mute.toProcess rfl))

theorem dispatch_makes_block_greeting : ∃ before next start passed world line first second third lines,
    Run quietly (World.initial ⟨0, none⟩) before start ∧
    start.current = some (.caller, dispatch .outside "greet" [] (performMethod "greet" []) next) ∧
    Run courteously start passed world ∧
    Returned .caller .outside "greet" [] (performMethod "greet" []) next start passed world line first
      second third ∧
    Block (before ++ passed) world line (stepRecord "greet" []) (performMethod "greet" []).toProcess
      first second third lines ∧
    Placed (before ++ passed) world first second third lines ∧
    world.recorder.trace = ["greet", "step passed", "return result"] := by
  have earlier := greetingWorld_run.trans (Run.play 1 greetingWorld)
  let next : Except Failure Nat → Process := fun
    | .ok _ => .done (.ok .null)
    | .error failure => .done (.error failure)
  have running : (World.play 1 greetingWorld).2.current =
      some (.caller, dispatch .outside "greet" [] (performMethod "greet" []) next) := rfl
  let played := World.play 60 (World.play 1 greetingWorld).2
  have run : Run courteously (World.play 1 greetingWorld).2 played.1 played.2 := .play _ _
  have idle : played.2.current.isNone := by decide +kernel
  have loops : ∀ past ∈ played.1, past.looping = true := by decide +kernel
  have well : ∀ act ∈ played.1.deeds .caller, ¬act.Fails := by decide +kernel
  have ended : ∀ link ∈ played.1.links, (played.2.outcome? link.number).isSome := by decide +kernel
  have present : ∀ link ∈ played.1.links, link.session = played.2.recorder.session := by
    decide +kernel
  rcases dispatch_makes_block earlier (.method "greet" []) running run with
    ⟨⟨_, here⟩, _⟩ | raised | ⟨line, first, second, third, returned, blocks⟩
  · simp [here] at idle
  · cases raised with
    | arguments failed => cases failed
    | @listener before _ _ _ fault split told fails =>
      have emitted : .leave .listener (.error (.fault fault)) ∈ History.deeds played.1 .caller := by
        rw [split, History.deeds_append, told.emits]
        exact List.mem_append_left _ (List.mem_cons_of_mem _ (List.mem_of_getLast? fails))
      exact (well _ emitted trivial).elim
    | stopped split _ _ stops =>
      rw [loops _ (split ▸ by simp)] at stops
      cases stops
  · obtain ⟨_, _, early, late, links⟩ := returned.links
    obtain ⟨lines, block, placed⟩ := blocks (ended third (links ▸ by simp))
    exact ⟨_, next, _, _, _, line, first, second, third, lines, earlier, running, run, returned, block,
      placed (by decide +kernel) (present first (links ▸ by simp)), by decide +kernel⟩

/-- The task that a dispatch has come back with is cancelled: all tasks have ended, and the result is
missing from the block. -/
theorem block_cut_short : ∃ passed world further last,
    Run courteously greetingWorld passed world ∧
    History.added passed 1 = [(0, "greet"), (1, "step passed"), (2, "return result")] ∧
    Run courteously (world.cancel 2) further last ∧ last.recorder.running = true ∧ last.Finished ∧
    last.recorder.trace = ["greet", "step passed"] := by
  let played := World.play 6 greetingWorld
  let cut := World.play 60 (played.2.cancel 2)
  have finished : ∀ number < cut.2.tasks.length, (cut.2.outcome? number).isSome := by decide +kernel
  exact ⟨_, _, _, _, Run.play 6 greetingWorld, by decide +kernel, Run.play 60 (played.2.cancel 2),
    by decide +kernel, finished, by decide +kernel⟩

end FeatureRunner
