import FeatureRunner.Proofs.Actor.Search
import FeatureRunner.Proofs.Container.History

/-!
Dispatched actions and the helpers that they reach. The task of an action that has begun searches the
helpers as they are then and makes the one call that the search has come to; apart from it, none of
the tasks of the dispatch has to do with helpers.

Main statement: `action_reaches_first_capable`.
-/

namespace FeatureRunner
open FeatureRunner.World FeatureRunner.Actor

/-! ## What has to do with helpers -/

/-- Looks for a method of a helper, or calls one. -/
def Act.Helping : Act → Prop
  | .ask (.method _) | .ask (.count ..) | .call .method .. => True
  | _ => False

instance : DecidablePred Act.Helping := fun act => by unfold Act.Helping; split <;> infer_instance

/-- What is seen of a method when it is called. One that echoes only logs. -/
def Method.shown (method : Method) (args : List Value) : List Act :=
  match method, args with
  | .callable body, args => [.call .method body args]
  | .count number, [amount] => [.ask (.count number amount)]
  | _, _ => []

/-- The law that nothing has to do with helpers. -/
def unaided : Law where
  allows act := ¬act.Helping
  assumes _ := True
  covers := False

theorem unaided_listeners : unaided.AdmitsListeners where
  collects _ _ _ _ _ _ _ _ := id
  calls _ _ _ := id
  leaves _ := id

theorem unaided_scripts (role : Role) (suspends : Bool) : unaided.AdmitsScripts role suspends where
  toAdmitsListeners := unaided_listeners
  asks request scripted := by
    cases request with
    | method | count => exact scripted.elim
    | _ => exact id
  adds _ _ _ := id
  works covers := covers.elim
  awaits _ _ _ _ _ _ := id
  waits _ := ⟨fun _ => id, id⟩

theorem unaided_plain : unaided.Plain where
  closed role callable args _ := callable.process_obeys (unaided_scripts role _) args
  assumes _ := trivial
  grants _ _ fair := fair
  numbers _ := trivial

theorem not_helping_of_looks {act : Act} (looks : act.Looks) : ¬act.Helping := by
  unfold Act.Looks at looks
  split at looks
  · exact id
  · exact looks.elim

theorem filter_helping_eq_nil {deeds : List Act} (idle : ∀ act ∈ deeds, ¬act.Helping) :
    deeds.filter Act.Helping = [] := by
  simpa [List.filter_eq_nil_iff] using idle

theorem callMethod_shown {method : Method} {args : List Value} {own : List Act} {outcome : Outcome}
    (performs : (callMethod method args).toProcess.Performs own (.done outcome)) :
    own.filter Act.Helping = method.shown args := by
  cases method with
  | callable callable =>
    rcases Process.Performs.of_call performs with ⟨_, same⟩ | ⟨rest, rfl, further⟩
    · cases same
    · have obeys : ((callable.process .method args).andThen fun outcome =>
          .leave .method outcome (.done outcome)).Obeys unaided :=
        (callable.process_obeys (unaided_scripts .method _) args).andThen fun _ plain =>
          .leave id fun _ => .stop plain
      have calls : (Act.call .method callable args).Helping := trivial
      simp [calls, filter_helping_eq_nil (obeys.performs unaided_plain further).2, Method.shown]
  | echo =>
    have obeys : (callMethod .echo args).Obeys unaided :=
      .bind (.log (fun _ => id) id) fun _ => .pure _
    exact filter_helping_eq_nil (obeys.toProcess.performs unaided_plain performs).2
  | count number =>
    match args with
    | [] =>
      obtain ⟨rfl, _⟩ := Process.Performs.of_done performs
      rfl
    | [amount] =>
      rcases Process.Performs.of_ask performs with ⟨_, same⟩ | ⟨answer, rest, _, rfl, further⟩
      · cases same
      · cases answer <;> rw [(Process.Performs.of_done further).1] <;> rfl
    | _ :: _ :: _ =>
      obtain ⟨rfl, _⟩ := Process.Performs.of_done performs
      rfl

theorem idle_of_report {session : Nat} {outcome : Outcome} {told : List Act} {left : Process}
    (reports : (Recorder.report session outcome).Performs told left) : ∀ act ∈ told, ¬act.Helping := by
  rcases outcome with (fault | _) | value
  · rcases reports.of_ask with ⟨rfl, _⟩ | ⟨_, rest, _, rfl, further⟩
    · simp
    · rw [further.of_done.1]
      simp [Act.Helping]
  · simp [reports.of_done.1]
  · simp [reports.of_done.1]

theorem Performed.unaided {passed : History} {world : World} {link : Link} {name : String}
    {body : Process} (performed : Performed passed world) (member : link ∈ passed.links)
    (work : link.work = some (name, body)) (obeys : body.Obeys unaided) :
    ∀ act ∈ passed.deeds (.task link.number), ¬act.Helping := by
  obtain ⟨process, left⟩ := process?_isSome (performed.serial.inside link member)
  have course := performed.course member left
  have looking {asked : List Act} (looks : ∀ act ∈ asked, act.Looks) :
      ∀ act ∈ asked, ¬act.Helping := fun act member => not_helping_of_looks (looks act member)
  generalize passed.deeds (.task link.number) = deeds at course ⊢
  cases course with
  | looks looks => exact looking looks
  | works work' looks performs =>
    cases work.symm.trans work'
    have allowed := (obeys.performs unaided_plain performs).2
    exact List.forall_mem_append.2 ⟨looking looks, List.forall_mem_cons.2 ⟨id, allowed⟩⟩
  | came work' looks performs reports =>
    cases work.symm.trans work'
    have allowed := (obeys.performs unaided_plain performs).2
    exact List.forall_mem_append.2 ⟨looking looks, List.forall_mem_cons.2
      ⟨id, List.forall_mem_append.2 ⟨allowed, idle_of_report reports⟩⟩⟩

theorem passing_unaided (step : Value) : (passing step).toProcess.Obeys unaided :=
  Program.Obeys.toProcess (.bind (emitFor_obeys unaided_listeners id) fun _ => .pure _)

theorem resultOf_unaided (task : Nat) : (Recorder.resultOf task).toProcess.Obeys unaided := by
  refine .ask id fun _ found fair => ?_
  cases found with
  | some outcome => exact .stop fun cancelled => fair (congrArg some cancelled)
  | none => exact .stop (uncancelled_fault _)

/-! ## How a dispatched action goes -/

/-- What an action has done by the call that it has come to, and how it has ended. -/
inductive Actor.ComesTo (action : String) : Option (Method × List Value) → List Act → Outcome → Prop
  | called {method : Method} {given : List Value} {own : List Act} {outcome : Outcome}
      (performs : (callMethod method given).toProcess.Performs own (.done outcome))
      (shown : own.filter Act.Helping = method.shown given) :
      ComesTo action (some (method, given)) own outcome
  | missing : ComesTo action none [] (.error (.fault (.helperNotFound action)))

theorem comesTo_of_performs {action : String} {call : Option (Method × List Value)} {own : List Act}
    {outcome : Outcome} (performs : (follow action call).toProcess.Performs own (.done outcome)) :
    ComesTo action call own outcome := by
  rcases call with _ | ⟨method, given⟩
  · obtain ⟨rfl, same⟩ := Process.Performs.of_done performs
    cases same
    exact .missing
  · exact .called performs (callMethod_shown performs)

/-- The result of a dispatch by how its action has ended: the same, unless a listener has failed that
was told of the end. -/
inductive Answered (passed : History) (world : World) (step : Value) (first second third : Link) :
    Outcome → Prop
  | value {value : Value} (result : world.outcome? third.number = some (.ok value)) :
      Answered passed world step first second third (.ok value)
  | refused {asked heard told : List Act} {value : Value} {fault : Fault}
      (did : passed.deeds (.task second.number) =
        asked ++ .ask (.subscribers .actor stepPassed [step]) :: heard ++ told)
      (comes : heard.getLast? = some (.leave .listener (.error (.fault fault))))
      (result : world.outcome? third.number = some (.error (.fault fault))) :
      Answered passed world step first second third (.ok value)
  | fault {fault : Fault} (result : world.outcome? third.number = some (.error (.fault fault))) :
      Answered passed world step first second third (.error (.fault fault))
  | failed {own heard told : List Act} {raised fault : Fault}
      (did : passed.deeds (.task first.number) =
        own ++ .ask (.subscribers .actor stepFailed [step, .fault raised]) :: heard ++ told)
      (comes : heard.getLast? = some (.leave .listener (.error (.fault fault))))
      (result : world.outcome? third.number = some (.error (.fault fault))) :
      Answered passed world step first second third (.error (.fault raised))

/-- The tasks of a dispatch have had nothing to do with helpers, for one before them has failed. -/
structure Skipped (passed : History) (world : World) (first second third : Link) : Prop where
  fails : ∃ previous fault, first.previous = some previous ∧
    world.outcome? previous = some (.error (.fault fault)) ∧
    world.outcome? third.number = some (.error (.fault fault))
  idle : ∀ link ∈ [first, second, third], ∀ act ∈ passed.deeds (.task link.number), ¬act.Helping

/-- The task of an action has begun in a world, and what it has done from there on: it has searched
the helpers and made the call that the action reaches among them, and that is all that it has to do
with helpers. -/
inductive Undertaken (passed : History) (line action : String) (args : List Value) (first : Link)
    (began : World) (outcome : Outcome) : Prop
  | of {early late : History} {call : Option (Method × List Value)} {sought own rest : List Act}
      (split : passed = early ++ began :: late)
      (begins : began.act? = some (.task first.number, .ask (.record first.session line)))
      (reaches : Reaches began.readyHelpers began.container.helpers action args call)
      (did : late.deeds (.task first.number) = sought ++ own ++ rest)
      (searches : ∀ act ∈ sought, ∃ name, act = .ask (.method name))
      (comes : ComesTo action call own outcome)
      (idle : ∀ act ∈ early.deeds (.task first.number) ++ rest, ¬act.Helping) :
      Undertaken passed line action args first began outcome

/-- How the task of an action ends by how the action has ended: the same, unless a listener has failed
that was told of a failure. -/
inductive Reported (passed : History) (step : Value) (first : Link) : Outcome → Outcome → Prop
  | same {outcome : Outcome} : Reported passed step first outcome outcome
  | failed {own heard told : List Act} {raised fault : Fault}
      (did : passed.deeds (.task first.number) =
        own ++ .ask (.subscribers .actor stepFailed [step, .fault raised]) :: heard ++ told)
      (comes : heard.getLast? = some (.leave .listener (.error (.fault fault)))) :
      Reported passed step first (.error (.fault raised)) (.error (.fault fault))

section Actions

variable {clock : Calendar.Moment} {owner : Owner} {role : Role} {line action : String}
  {args : List Value} {next : Except Failure Nat → Process} {before passed : History}
  {start world : World} {first second third : Link}

theorem opens_of_looks {body : Process} {next : World}
    (run : Run quietly (World.initial clock) passed world) (moved : world.step? = some next)
    (member : first ∈ passed.links) (work : first.work = some (line, body))
    (acts : world.act? = some (.task first.number, .ask (.record first.session line)))
    (looks : ∀ act ∈ passed.deeds (.task first.number), act.Looks) :
    next.current = some (.task first.number, body.andThen (Recorder.report first.session)) ∧
      next.container = world.container ∧ next.readyHelpers = world.readyHelpers := by
  obtain ⟨process, running, asks⟩ := running_of_act? acts
  have stage := (Performed.of_run run).serial.staged first member _ (process?_of_running running)
  rw [History.said_eq, Act.line?_of_looks looks] at stage
  generalize none : ([] : List String) = said at stage
  -- The link has written nothing, and asks to be recorded: no stage but the first is like that.
  cases stage with
  | opens work' =>
    cases work.symm.trans work'
    rw [step?_of_running running, Recorder.opening, runNode_ask, Option.some.injEq] at moved
    subst moved
    exact ⟨rfl, rfl, rfl⟩
  | works => cases none
  | reported => cases none
  | _ => cases asks

/-- A link that has begun and ended has begun in a world of the run, and its body has come to hand. -/
theorem begins_of_begun {body : Process} {outcome : Outcome}
    (earlier : Run quietly (World.initial clock) before start)
    (run : Run considerately start passed world) (member : first ∈ passed.links)
    (work : first.work = some (line, body)) (begun : History.Begun (before ++ passed) first.number)
    (ended : world.outcome? first.number = some outcome) :
    ∃ early began late next, passed = early ++ began :: late ∧
      began.act? = some (.task first.number, .ask (.record first.session line)) ∧
      (∀ act ∈ History.deeds (before ++ early) (.task first.number), act.Looks) ∧
      Run quietly (World.initial clock) (before ++ early ++ [began]) next ∧
      Run considerately next late world ∧
      next.current = some (.task first.number, body.andThen (Recorder.report first.session)) ∧
      next.container = began.container ∧ next.readyHelpers = began.readyHelpers := by
  have quiet := run.courteous.quiet
  have performed := Performed.of_run (earlier.trans quiet)
  have unborn : before.deeds (.task first.number) = [] :=
    (Performed.of_run earlier).unborn _ ((earlier.links_beyond quiet).2 first member)
  have member' := History.mem_links_right before member
  obtain @⟨_, _, _, asked, own, told, work', looks, did, _⟩ :=
    performed.came member' begun (process?_of_outcome performed.serial.wired ended)
  cases work.symm.trans work'
  rw [History.deeds_append, unborn, List.nil_append] at did
  obtain ⟨early, began, late, rfl, rfl, acts, _⟩ := History.split_of_deeds did
  obtain ⟨begins, next, moved, further⟩ := run.split
  have looks : ∀ act ∈ History.deeds (before ++ early) (.task first.number), act.Looks := by
    rwa [History.deeds_append, unborn, List.nil_append]
  refine ⟨early, began, late, next, rfl, acts, looks, ?_, further, ?_⟩
  · exact (earlier.trans begins.courteous.quiet).step moved
  obtain ⟨process, running, _⟩ := running_of_act? acts
  have reached := earlier.trans begins.courteous.quiet
  have old := process?_lt (Serial.of_run reached).wired (process?_of_running running)
  rw [← List.append_assoc] at member'
  exact opens_of_looks reached moved
    (mem_of_lt reached moved further.courteous.quiet member' old) work acts looks

theorem performStep_andThen {step : Value} {action : Program Value} (uniform : action.Uniform)
    (further : Outcome → Process) : (performStep step action).toProcess.andThen further =
      action fun result => (performStep step (Program.ofOutcome result)).toProcess.andThen further :=
  uniform _ further

theorem not_atHand_of_outcome {number : Nat} {outcome : Outcome} (wired : world.Wired world.busy)
    (ended : world.outcome? number = some outcome) : ¬world.AtHand (.task number) := by
  rintro ⟨process, running⟩
  have busy : world.busy = some number := by simp [World.busy, running]
  rw [(wired.released number busy).2.1] at ended
  cases ended

theorem undertaken_of_begun {step : Value} {result : Outcome}
    (earlier : Run quietly (World.initial clock) before start)
    (run : Run considerately start passed world) (member : first ∈ passed.links)
    (work : first.work = some (line, (performStep step (performAction (.text action) args)).toProcess))
    (begun : History.Begun (before ++ passed) first.number)
    (ended : world.outcome? first.number = some result) :
    ∃ began outcome, Undertaken (before ++ passed) line action args first began outcome ∧
      Reported (before ++ passed) step first outcome result := by
  have serial := Serial.of_run (earlier.trans run.courteous.quiet)
  have left := process?_of_outcome serial.wired ended
  obtain ⟨early, began, late, next, rfl, acts, looks, reached, further, comes, container, ready⟩ :=
    begins_of_begun earlier run member work begun ended
  rw [performStep_andThen (performAction_uniform _ _)] at comes
  obtain ⟨call, sought, rest, back, rfl, further', reaches, search⟩ :=
    performAction_search further comes (not_atHand_of_outcome serial.wired ended)
  rw [container, ready] at reaches
  -- Behind the search the call stands in the place of the action, and goes as any action that is
  -- performed.
  have resumes := search.back
  rw [← performStep_andThen (follow_uniform action call)] at resumes
  obtain ⟨_, left', performs⟩ := World.Run.performs (reached.trans search.run.courteous.quiet)
    further'.courteous.quiet (process?_of_running resumes)
  cases left.symm.trans left'
  obtain ⟨_, acted, told, ends, reports, did⟩ := performs.of_andThen_done
  obtain rfl := Link.report_performs reports
  have quiet := idle_of_report reports
  have ahead : ∀ act ∈ History.deeds (before ++ early) (.task first.number), ¬act.Helping :=
    fun act member => not_helping_of_looks (looks act member)
  have parts : before ++ (early ++ began :: (sought ++ rest)) =
      (before ++ early) ++ began :: (sought ++ rest) := by simp
  have obeys := (follow_obeys reticent_actions action call).toProcess
  rw [parts]
  rcases performStep_does unaided_listeners unaided_plain (fun _ _ => id) (follow_uniform action call)
      (fun _ => obeys.uncancelled reticent_plain) ends with
    ⟨value, rfl, obtains⟩ | ⟨own, heard, raised, fault, rfl, rfl, obtains, silent, fails⟩
  · refine ⟨began, _, .of rfl acts reaches ?_ search.looks (comesTo_of_performs obtains)
      (List.forall_mem_append.2 ⟨ahead, quiet⟩), .same⟩
    rw [History.deeds_append, did, List.append_assoc]
  · have told' : ∀ act ∈ Act.ask (.subscribers .actor stepFailed [step, .fault raised]) :: heard ++ told,
        ¬act.Helping :=
      List.forall_mem_cons.2 ⟨id, List.forall_mem_append.2 ⟨silent, quiet⟩⟩
    refine ⟨began, _, .of rfl acts reaches ?_ search.looks (comesTo_of_performs obtains)
      (List.forall_mem_append.2 ⟨ahead, told'⟩), ?_⟩
    · rw [History.deeds_append, did]
      simp
    · rcases fails with rfl | comes
      · exact .same
      · have whole : History.deeds ((before ++ early) ++ began :: (sought ++ rest)) (.task first.number) =
            (History.deeds (before ++ early ++ [began] ++ sought) (.task first.number) ++ own) ++
              .ask (.subscribers .actor stepFailed [step, .fault raised]) :: heard ++ told := by
          rw [show (before ++ early) ++ began :: (sought ++ rest) =
            (before ++ early ++ [began] ++ sought) ++ rest by simp, History.deeds_append _ rest, did]
          simp
        exact .failed whole comes

theorem answered_of_reported {step : Value} {outcome result : Outcome} {lines : List String}
    (reported : Reported passed step first outcome result)
    (sequel : Sequel passed world step second third result lines) :
    Answered passed world step first second third outcome := by
  cases reported with
  | same =>
    cases sequel with
    | failed silent result => exact .fault result
    | refused did comes news silent result => exact .refused did comes result
    | succeeded news silent result => exact .value result
  | failed did comes =>
    cases sequel with
    | failed silent result => exact .failed did comes result

/-- In every run of the loop, whoever dispatches an action and wherever, as soon as the dispatch has
come back with a task that has ended: if its own task has begun, it has made the one call that the
action reaches among the helpers as they were then, which are those that successful calls had
inserted, each in the place of the first insertion of its name. No other method has been called, and
without a helper for it the action has failed. -/
theorem action_reaches_first_capable (earlier : Run quietly (World.initial clock) before start)
    (running : start.current = some (owner, actFor role (.text action :: args) next))
    (run : Run considerately start passed world) :
    (world.AtHand owner ∧ ∀ past ∈ passed, past.AtHand owner) ∨
    Raised owner "do" (.text action :: args) next start passed world ∨
    ∃ line first second third,
      Returned owner role "do" (.text action :: args) (performAction (.text action) args) next start
        passed world line first second third ∧
      ((world.outcome? third.number).isSome →
        Skipped (before ++ passed) world first second third ∨
        ∃ began outcome, Undertaken (before ++ passed) line action args first began outcome ∧
          (∀ link ∈ [second, third], ∀ act ∈ History.deeds (before ++ passed) (.task link.number),
            ¬act.Helping) ∧
          Answered (before ++ passed) world (stepRecord "do" (.text action :: args)) first second third
            outcome ∧
          ∀ calls, Container.Reached calls began.container → ∃ inserted,
            Container.Inserted calls inserted began.container.totals.length ∧
            began.container.helpers = Value.arranged inserted) := by
  rcases dispatch_cases earlier running run.courteous with
    inside | raised | ⟨line, first, second, third, returned⟩
  · exact .inl inside
  · exact .inr (.inl raised)
  refine .inr (.inr ⟨line, first, second, third, returned, fun settled => ?_⟩)
  have whole := earlier.trans run.courteous.quiet
  have performed := Performed.of_run whole
  have inside := returned.inside
  have inside' (link : Link) (member : link ∈ [first, second, third]) :=
    History.mem_links_right before (inside link member)
  obtain ⟨known, split, told, performs, passes, results, _⟩ := returned
  obtain ⟨result, ended, sequel⟩ := sequel_of_settled whole
    (fun link member => inside' link (List.mem_cons_of_mem _ member)) passes.work results.work
    (passes.previous.trans performs.tail) (results.previous.trans passes.tail) settled
  generalize History.said (before ++ passed) second.number ++
    History.said (before ++ passed) third.number = lines at sequel
  have idle : ∀ link ∈ [second, third], ∀ act ∈ History.deeds (before ++ passed) (.task link.number),
      ¬act.Helping :=
    List.forall_mem_cons.2
      ⟨performed.unaided (inside' second (by simp)) passes.work (passing_unaided _),
        List.forall_mem_singleton.2
          (performed.unaided (inside' third (by simp)) results.work (resultOf_unaided _))⟩
  by_cases begun : History.Begun (before ++ passed) first.number
  · right
    obtain ⟨began, outcome, undertaken, reported⟩ :=
      undertaken_of_begun earlier run (inside first (by simp)) performs.work begun ended
    exact ⟨began, outcome, undertaken, idle, answered_of_reported reported sequel,
      fun _ reached => reached.inserted⟩
  · left
    obtain ⟨previous, fault, ahead, rfl, failed⟩ :=
      performed.skipped (inside' first (by simp)) (by simp [performs.work]) begun ended
    have looks := performed.looks (inside' first (by simp)) begun
    refine ⟨⟨previous, fault, ahead, failed, ?_⟩, List.forall_mem_cons.2
      ⟨fun act member => not_helping_of_looks (looks act member), idle⟩⟩
    cases sequel with
    | failed silent result => exact result

end Actions

/-- Begins a session and dispatches an action. -/
def sing : Program Value := do
  Recorder.call .start
  let _ ← actFor .outside [.text "sing"]
  return .null

theorem sing_mute : sing.Obeys mute := by
  refine .bind (.bind (.ask (by simp [mute])) fun _ => .ofExcept _) fun _ => ?_
  exact .bind ((actFor_ensures (mute_scripts .outside false) _).weaken fun _ known => known.1)
    fun _ => .pure _

/-- The helpers of a choir: the first two, and another in the place of the first. -/
def choir : List Container.Call :=
  let helpers (entries : List (Value × Value)) : Value := .dict [(.text "helpers", .dict entries)]
  [.create [] (helpers [(.text "alto", .helper "alto" 0), (.text "bass", .helper "bass" 1)]),
    .append [] (helpers [(.text "alto", .helper "deputy" 2)])]

/-- A loop with a choir, where an action is about to be dispatched that only its deputy can do. -/
def singingWorld : World :=
  { World.initial ⟨0, none⟩ with
    looping := true
    container := { Container.initial with
      helpers := [(.text "alto", .helper "deputy" 2), (.text "bass", .helper "bass" 1)] }
    readyHelpers := [[], [("hum", .script "hum" ⟨[], 0, true, []⟩ false false 0 [])],
      [("do", .script "do" ⟨[], 0, true, []⟩ false false 0 [.give .arguments])]]
    current := some (.caller, sing.toProcess) }

theorem singingWorld_run : Run quietly (World.initial ⟨0, none⟩) [] singingWorld := by
  have hosted : Run quietly (World.initial ⟨0, none⟩) [] { singingWorld with current := none } :=
    Run.refl.between (.outside (.alters rfl))
  exact hosted.between (.outside (.enters sing_mute.toProcess rfl))

theorem singingWorld_reached : Container.Reached choir singingWorld.container := by
  have created : Container.Reached ([] ++ choir.take 1) { Container.initial with
      helpers := [(.text "alto", .helper "alto" 0), (.text "bass", .helper "bass" 1)] } :=
    .call .initial rfl
  have appended : Container.Reached (choir.take 1 ++ choir.drop 1) singingWorld.container :=
    .call created rfl
  exact appended

theorem action_reaches_first_capable_sing :
    ∃ before next start passed world line first second third began outcome calls,
      Run quietly (World.initial ⟨0, none⟩) before start ∧
      start.current = some (.caller, actFor .outside [.text "sing"] next) ∧
      Run considerately start passed world ∧
      Returned .caller .outside "do" [.text "sing"] (performAction (.text "sing") []) next start passed
        world line first second third ∧
      Undertaken (before ++ passed) line "sing" [] first began outcome ∧
      Answered (before ++ passed) world (stepRecord "do" [.text "sing"]) first second third outcome ∧
      Container.Reached (choir ++ calls) began.container ∧
      world.recorder.trace = ["do: \"sing\"", "step passed", "return result"] := by
  have earlier := singingWorld_run.trans (Run.play 1 singingWorld)
  let next : Except Failure Nat → Process := fun
    | .ok _ => .done (.ok .null)
    | .error failure => .done (.error failure)
  have running : (World.play 1 singingWorld).2.current =
      some (.caller, actFor .outside [.text "sing"] next) := rfl
  let played := World.play 60 (World.play 1 singingWorld).2
  have run : Run considerately (World.play 1 singingWorld).2 played.1 played.2 := .play _ _
  have idle : played.2.current.isNone := by decide +kernel
  have loops : ∀ past ∈ played.1, past.looping = true := by decide +kernel
  have well : ∀ act ∈ played.1.deeds .caller, ¬act.Fails := by decide +kernel
  have ended : ∀ link ∈ played.1.links,
      ((played.2.outcome? link.number).bind Except.toOption).isSome := by decide +kernel
  rcases action_reaches_first_capable earlier running run with
    ⟨⟨_, here⟩, _⟩ | raised | ⟨line, first, second, third, returned, resolves⟩
  · simp [here] at idle
  · cases raised with
    | arguments failed => cases failed
    | @listener before _ _ _ fault split told fails =>
      have emitted : .leave .listener (.error (.fault fault)) ∈ History.deeds played.1 .caller := by
        rw [split, History.deeds_append, told.emits]
        exact List.mem_append_left _ (List.mem_cons_of_mem _ (List.mem_of_getLast? fails))
      exact (well _ emitted trivial).elim
    | stopped split _ _ stops =>
      rw [loops _ (split ▸ by simp)] at stops
      cases stops
  · obtain ⟨_, _, early, late, links⟩ := returned.links
    have ended := ended third (links ▸ by simp)
    rcases resolves (by cases known : played.2.outcome? third.number <;> simp_all) with
      ⟨⟨_, _, _, _, failed⟩, _⟩ | ⟨began, outcome, undertaken, _, answered, _⟩
    · simp [failed, Except.toOption] at ended
    · have whole : Run providing singingWorld _ played.2 :=
        (Run.play 1 singingWorld).trans (Run.play 60 _)
      obtain ⟨calls, reached⟩ : ∃ calls, Container.Reached (choir ++ calls) began.container := by
        cases undertaken with
        | of split => 
          have split' : (World.play 1 singingWorld).1 ++ played.1 = _ ++ began :: _ := split
          rw [split'] at whole
          exact Reached.of_run singingWorld_run singingWorld_reached whole.split.1
      exact ⟨_, next, _, _, _, line, first, second, third, began, outcome, calls, earlier, running, run,
        returned, undertaken, answered, reached, by decide +kernel⟩

/-- A loop without helpers, where a listener of failures fails. -/
def heckledWorld : World :=
  { singingWorld with
    container := .initial
    dispatcher := Dispatcher.initial.on stepFailed (.scripted "boom")
    listeners := [("boom", .script "boom" ⟨[], 0, true, []⟩ false false 0
      [.raise .value (some "listener")])] }

/-- An action that no helper is there for: its result is the fault of the listener that was told of the
failure. -/
theorem missing_helper_overruled : ∃ next passed world,
    (World.play 1 heckledWorld).2.current = some (.caller, actFor .outside [.text "sing"] next) ∧
    Run considerately (World.play 1 heckledWorld).2 passed world ∧
    (∀ past ∈ passed, past.container.helpers = []) ∧
    History.added passed 1 = [(0, "do: \"sing\""), (1, "step passed"), (2, "return result")] ∧
    world.outcome? 2 = some (.error (.fault (.raised .value (some "listener")))) ∧
    world.outcome? 2 ≠ some (.error (.fault (.helperNotFound "sing"))) := by
  let played := World.play 60 (World.play 1 heckledWorld).2
  have empty : ∀ past ∈ played.1, past.container.helpers.isEmpty := by decide +kernel
  have ended : (played.2.outcome? 2).map (Except.map fun _ => ()) =
      some (.error (.fault (.raised .value (some "listener")))) := by
    decide +kernel
  have failed : played.2.outcome? 2 = some (.error (.fault (.raised .value (some "listener")))) := by
    obtain ⟨outcome, given, failed⟩ := Option.map_eq_some_iff.1 ended
    cases outcome with
    | error failure =>
      obtain rfl := Except.error.inj failed
      exact given
    | ok value => cases failed
  refine ⟨_, _, _, rfl, Run.play 60 _, fun past member => List.isEmpty_iff.1 (empty past member),
    by decide +kernel, failed, ?_⟩
  rw [failed]
  simp

end FeatureRunner
