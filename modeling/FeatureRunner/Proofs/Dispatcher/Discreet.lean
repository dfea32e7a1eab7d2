import FeatureRunner.Proofs.Dispatcher.Edits
import FeatureRunner.Suite

/-!
Whatever a process is answered, and however what it calls and awaits has ended, scripts and the runs
of suites subscribe and take back scripted listeners only, and none of the collector's handlers.
-/

namespace FeatureRunner

/-- The change of the subscriptions that a request asks for. -/
def Request.edit? : Request → Option Edit
  | .subscribe event listener => some (.on event listener)
  | .unsubscribe event listener => some (.off event listener)
  | _ => none

/-- The change of the subscriptions that a process makes next. -/
def Process.edit? : Process → Option Edit
  | .ask request _ => request.edit?
  | _ => none

/-- A request that leaves the handlers of the collector alone. -/
def Request.Discreet (request : Request) : Prop :=
  ∀ edit, request.edit? = some edit → edit.Scripted

theorem Request.discreet_of_none {request : Request} (none : request.edit? = none) :
    request.Discreet := by
  intro edit known
  rw [none] at known
  cases known

/-- Every node of a process, and of the tasks that it adds, leaves the handlers of the collector
alone. In contrast to a law this is said of the branches of cancelled outcomes as well. -/
inductive Process.Discreet : Process → Prop
  | done (outcome : Outcome) : Discreet (.done outcome)
  | ask {request : Request} {next : request.Answer → Process} (asks : request.Discreet)
      (further : ∀ answer, Discreet (next answer)) : Discreet (.ask request next)
  | call {role : Role} {callable : Callable} {args : List Value} {next : Outcome → Process}
      (further : ∀ outcome, Discreet (next outcome)) : Discreet (.call role callable args next)
  | leave {role : Role} {outcome : Outcome} {rest : Process} (further : Discreet rest) :
      Discreet (.leave role outcome rest)
  | add {role : Role} {name : String} {body : Process} {next : Except Fault Nat → Process}
      (work : Discreet body) (further : ∀ answer, Discreet (next answer)) :
      Discreet (.add role name body next)
  | await {task : Nat} {next : Outcome → Process} (further : ∀ outcome, Discreet (next outcome)) :
      Discreet (.await task next)
  | join {task : Nat} {rest : Process} (further : Discreet rest) : Discreet (.join task rest)
  | wait {gate : String} {rest : Process} (further : Discreet rest) : Discreet (.wait gate rest)
  | yield {rest : Process} (further : Discreet rest) : Discreet (.yield rest)

theorem Process.Discreet.andThen {process : Process} {next : Outcome → Process}
    (discreet : process.Discreet) (further : ∀ outcome, (next outcome).Discreet) :
    (process.andThen next).Discreet := by
  induction discreet with
  | done outcome => exact further outcome
  | ask asks _ ih => exact .ask asks ih
  | call _ ih => exact .call ih
  | leave _ ih => exact .leave ih
  | add work _ _ ih => exact .add work ih
  | await _ ih => exact .await ih
  | join _ ih => exact .join ih
  | wait _ ih => exact .wait ih
  | yield _ ih => exact .yield ih

/-- What a program adds to what follows leaves the handlers of the collector alone. -/
def Program.Discreet {α : Type} (program : Program α) : Prop :=
  ∀ next, (∀ result, (next result).Discreet) → (program next).Discreet

namespace Program.Discreet

variable {α β : Type} {program : Program α}

theorem toProcess {program : Program Value} (discreet : program.Discreet) :
    program.toProcess.Discreet :=
  discreet _ .done

theorem ofProcess {process : Process} (discreet : process.Discreet) :
    (Program.ofProcess process).Discreet :=
  fun _ further => discreet.andThen further

theorem ofOutcome (outcome : Except Failure α) : (Program.ofOutcome outcome).Discreet :=
  fun _ further => further outcome

theorem pure (value : α) : (Pure.pure value : Program α).Discreet :=
  fun _ further => further (.ok value)

theorem throw (fault : Fault) : (Program.throw fault : Program α).Discreet :=
  fun _ further => further (.error (.fault fault))

theorem ofExcept (answer : Except Fault α) : (Program.ofExcept answer).Discreet := by
  cases answer with
  | ok value => exact pure value
  | error fault => exact throw fault

theorem bind {next : α → Program β} (first : program.Discreet)
    (second : ∀ value, (next value).Discreet) : (program >>= next).Discreet := by
  intro continuation further
  rw [Program.bind_apply]
  refine first _ fun result => ?_
  cases result with
  | ok value => exact second value _ further
  | error failure => exact further _

theorem rescue {handler : Fault → Program α} (first : program.Discreet)
    (handles : ∀ fault, (handler fault).Discreet) : (program.rescue handler).Discreet := by
  intro continuation further
  refine first _ fun result => ?_
  match result with
  | .error (.fault fault) => exact handles fault _ further
  | .error .cancelled => exact further _
  | .ok value => exact further _

theorem ite {condition : Prop} [Decidable condition] {other : Program α} (first : program.Discreet)
    (second : other.Discreet) : (if condition then program else other).Discreet := by
  split
  · exact first
  · exact second

theorem ask {request : Request} (asks : request.edit? = none) : (Program.ask request).Discreet :=
  fun _ further => .ask (Request.discreet_of_none asks) fun _ => further _

theorem edits {request : Request} {edit : Edit} (asks : request.edit? = some edit)
    (scripted : edit.Scripted) : (Program.ask request).Discreet := by
  refine fun _ further => .ask (fun other known => ?_) fun _ => further _
  cases asks.symm.trans known
  exact scripted

theorem within {role : Role} {program : Program Value} (discreet : program.Discreet) :
    (Program.within role program).Discreet :=
  fun _ further => discreet _ fun outcome => .leave (further outcome)

theorem call (role : Role) (callable : Callable) (args : List Value) :
    (Program.call role callable args).Discreet :=
  within fun _ further => .call further

theorem await (task : Nat) : (Program.await task).Discreet :=
  fun _ further => .await further

theorem join (task : Nat) : (Program.join task).Discreet :=
  fun _ further => .join (further _)

theorem wait (gate : String) : (Program.wait gate).Discreet :=
  fun _ further => .wait (further _)

theorem yield (times : Nat) : (Program.yield times).Discreet := by
  induction times with
  | zero => exact pure ()
  | succ times ih => exact fun _ further => .yield (ih _ further)

theorem addFor (role : Role) (name : String) {body : Program Value} (work : body.Discreet) :
    (Program.addFor role name body).Discreet := by
  refine fun _ further => .add work.toProcess fun answer => ?_
  cases answer with
  | ok task => exact further _
  | error fault => exact further _

theorem log (value : Value) : (Program.log value).Discreet :=
  .bind (.ask rfl) fun _ => .ask rfl

end Program.Discreet

/-! ## Emissions and dispatches -/

theorem notifyAll_discreet (args : List Value) (subscribers : List Subscriber) :
    (notifyAll args subscribers).Discreet := by
  induction subscribers with
  | nil => exact .pure ()
  | cons subscriber rest ih =>
    refine .bind ?_ fun _ => ih
    match subscriber with
    | .callable (.script name signature true _ _ _) =>
      exact .within (.bind (.ofExcept _) fun _ => .pure _)
    | .callable (.script name signature false _ _ _) => exact .call _ _ _
    | .callable (.builtin kind) => exact .call _ _ _
    | .collector event => exact .within (.bind (.ask rfl) fun _ => .bind (.ofExcept _) fun _ => .pure _)

theorem emitFor_discreet (role : Role) (event : String) (args : List Value) :
    (emitFor role event args).Discreet :=
  .bind (.ask rfl) fun _ => notifyAll_discreet _ _

theorem resultOf_discreet (task : Nat) : (Recorder.resultOf task).Discreet := by
  refine .bind (.ask rfl) fun found => ?_
  cases found with
  | some outcome => exact .ofOutcome outcome
  | none => exact .throw _

namespace Actor

theorem callMethod_discreet (method : Method) (args : List Value) : (callMethod method args).Discreet := by
  cases method with
  | callable callable => exact .call _ _ _
  | echo => exact .bind (.log _) fun _ => .pure _
  | count number =>
    unfold callMethod
    match args with
    | [] => exact .throw _
    | [amount] => exact .bind (.ask rfl) fun _ => .ofExcept _
    | _ :: _ :: _ => exact .throw _

theorem findMethod_discreet (name : String) : (findMethod name).Discreet :=
  .ite (.ask rfl) (.pure none)

theorem performMethod_discreet (name : String) (args : List Value) :
    (performMethod name args).Discreet := by
  refine .bind (findMethod_discreet name) fun found => ?_
  cases found with
  | some method => exact callMethod_discreet method args
  | none => exact .throw _

theorem performAction_discreet (action : Value) (args : List Value) :
    (performAction action args).Discreet := by
  unfold performAction
  split
  · refine .bind (findMethod_discreet _) fun found => ?_
    cases found with
    | some method => exact callMethod_discreet method args
    | none =>
      refine .bind (findMethod_discreet "do") fun general => ?_
      cases general with
      | some method => exact callMethod_discreet method _
      | none => exact .throw _
  · exact .throw _

theorem dispatch_discreet (role : Role) (name : String) (args : List Value) {action : Program Value}
    (performs : action.Discreet) : (dispatch role name args action).Discreet := by
  have performed (step : Value) : (performStep step action).Discreet :=
    .rescue performs fun _ => .bind (emitFor_discreet _ _ _) fun _ => .throw _
  refine .bind (.ofExcept _) fun line => .bind (emitFor_discreet _ _ _) fun _ => ?_
  refine .bind (.addFor _ _ (performed _)) fun task => .bind (.addFor _ _ ?_) fun _ => ?_
  · exact .bind (emitFor_discreet _ _ _) fun _ => .pure _
  · exact .addFor _ _ (resultOf_discreet task)

theorem actFor_discreet (role : Role) (values : List Value) : (actFor role values).Discreet := by
  cases values with
  | nil => exact .throw _
  | cons action args => exact dispatch_discreet role _ _ (performAction_discreet action args)

theorem invokeFor_discreet (role : Role) (method : String) (args : List Value) :
    (invokeFor role method args).Discreet := by
  unfold invokeFor
  split
  · exact actFor_discreet role args
  · exact .bind (.ofExcept _) fun method =>
      dispatch_discreet role _ _ (performMethod_discreet method args)

end Actor

/-! ## Scripts -/

mutual

theorem eval_discreet (args : List Value) : (term : Term) → (term.eval args).Discreet
  | .const _ | .argument _ | .arguments => .pure _
  | .valueOf _ => .bind (.ask rfl) fun _ => .pure _
  | .view .. => .ofExcept _
  | .list items => .bind (evalAll_discreet args items) fun _ => .pure _
  | .tuple items => .bind (evalAll_discreet args items) fun _ => .pure _
  | .dict entries => .bind (evalEntries_discreet args entries) fun _ => .pure _

theorem evalAll_discreet (args : List Value) :
    (terms : List Term) → (Term.evalAll args terms).Discreet
  | [] => .pure _
  | term :: rest =>
    .bind (eval_discreet args term) fun _ => .bind (evalAll_discreet args rest) fun _ => .pure _

theorem evalEntries_discreet (args : List Value) :
    (entries : List (Term × Term)) → (Term.evalEntries args entries).Discreet
  | [] => .pure _
  | (key, term) :: rest =>
    .bind (eval_discreet args key) fun _ => .bind (eval_discreet args term) fun _ =>
      .bind (evalEntries_discreet args rest) fun _ => .pure _

end

theorem awaitLogged_discreet (task : Nat) : (awaitLogged task).Discreet :=
  .bind (.ask rfl) fun _ => .bind (.await task) fun _ => .ask rfl

theorem callTask_discreet (task : Option Callable) : (callTask task).Discreet := by
  cases task with
  | none => exact .pure _
  | some callable => exact .call _ _ _

theorem callFor_discreet (role : Role) (call : RecorderCall) : (Recorder.callFor role call).Discreet :=
  .bind (.ask rfl) fun _ => .ofExcept _

theorem action_discreet (role : Role) (args : List Value) (action : Action) :
    (action.program role args).Discreet := by
  cases action with
  | log term => exact .bind (eval_discreet args term) fun _ => .bind (.log _) fun _ => .pure _
  | give term => exact .bind (eval_discreet args term) fun _ => .pure _
  | raise kind message => exact .throw _
  | act terms =>
    exact .bind (evalAll_discreet args terms) fun _ => .bind (Actor.actFor_discreet _ _) fun _ =>
      .pure _
  | invoke method terms =>
    exact .bind (evalAll_discreet args terms) fun _ => .bind (Actor.invokeFor_discreet _ _ _) fun _ =>
      .pure _
  | awaitAct terms =>
    exact .bind (evalAll_discreet args terms) fun _ => .bind (Actor.actFor_discreet _ _) fun _ =>
      .bind (awaitLogged_discreet _) fun _ => .pure _
  | awaitInvoke method terms =>
    exact .bind (evalAll_discreet args terms) fun _ => .bind (Actor.invokeFor_discreet _ _ _) fun _ =>
      .bind (awaitLogged_discreet _) fun _ => .pure _
  | wait gate => exact .bind (.wait gate) fun _ => .pure _
  | yield times => exact .bind (.yield times) fun _ => .pure _
  | advance microseconds => exact .bind (.ask rfl) fun _ => .pure _
  | set name term =>
    exact .bind (eval_discreet args term) fun _ => .bind (.ask rfl) fun _ => .pure _
  | increase name term =>
    exact .bind (eval_discreet args term) fun _ => .bind (.ofExcept _) fun _ =>
      .bind (.ask rfl) fun _ => .bind (.ofExcept _) fun _ => .bind (.ask rfl) fun _ => .pure _
  | expect name term =>
    exact .bind (eval_discreet args term) fun _ => .bind (.ask rfl) fun _ =>
      .ite (.pure _) (.throw _)
  | add name task => exact .bind (.addFor _ _ (callTask_discreet task)) fun _ => .pure _
  | subscribe event listener => exact .bind (.edits rfl rfl) fun _ => .pure _
  | unsubscribe event listener => exact .bind (.edits rfl rfl) fun _ => .pure _
  | emit event terms =>
    exact .bind (evalAll_discreet args terms) fun _ => .bind (emitFor_discreet _ _ _) fun _ => .pure _
  | recorder call => exact .bind (callFor_discreet _ _) fun _ => .pure _

theorem runActions_discreet (role : Role) (args : List Value) (actions : List Action) :
    (runActions role args actions).Discreet := by
  induction actions with
  | nil => exact .pure _
  | cons action rest ih =>
    refine .bind (action_discreet role args action) fun result => ?_
    cases result with
    | some value => exact .pure value
    | none => exact ih

/-- Whatever is called subscribes scripted listeners only. -/
theorem Callable.process_discreet (callable : Callable) (role : Role) (args : List Value) :
    (callable.process role args).Discreet := by
  refine Program.Discreet.toProcess ?_
  cases callable with
  | builtin kind => exact .ofExcept _
  | script name signature suspends nameless line actions =>
    exact .bind (.ofExcept _) fun bound => runActions_discreet _ _ _

/-! ## Tasks of the recorder, tests and suites -/

theorem settled_discreet (task : Nat) : (Recorder.settled task).Discreet := by
  refine .bind (.ask rfl) fun found => ?_
  cases found with
  | some outcome => exact .ofOutcome outcome
  | none => exact .bind (.join task) fun _ => resultOf_discreet task

theorem task_discreet (session : Nat) (previous : Option Nat) (name : String) {body : Process}
    (work : body.Discreet) :
    (Recorder.task session previous name (.ofProcess body)).toProcess.Discreet := by
  have waits : (Recorder.awaitPrevious previous).Discreet := by
    cases previous with
    | none => exact .pure ()
    | some previous => exact .bind (settled_discreet previous) fun _ => .pure ()
  refine Program.Discreet.toProcess (.bind waits fun _ => .bind (.ask rfl) fun _ => ?_)
  exact .rescue (.ofProcess work) fun _ => .bind (.ask rfl) fun _ => .throw _

theorem abandoned_discreet (previous : Nat) : (Recorder.abandoned previous).toProcess.Discreet :=
  Program.Discreet.toProcess (.bind (.join previous) fun _ => .pure _)

theorem drainNow_discreet : Recorder.drainNow.Discreet := by
  refine .bind (.ask rfl) fun tail => .bind ?_ fun _ => .pure ()
  cases tail with
  | none => exact .pure _
  | some tail => exact settled_discreet tail

theorem fire_discreet (name event : String) (args : List Value) : (Test.fire name event args).Discreet :=
  .bind (.addFor _ _ (.bind (emitFor_discreet _ _ _) fun _ => .pure _)) fun _ => .pure _

theorem runSteps_discreet (steps : List ResolvedStep) : (Test.runSteps steps).Discreet := by
  induction steps with
  | nil => exact .pure ()
  | cons step rest ih => exact .bind (.call _ _ _) fun _ => .bind drainNow_discreet fun _ => ih

theorem Test.run_discreet (test : Test) : test.run.Discreet := by
  have concludes : test.conclude.Discreet := .bind (fire_discreet _ _ _) fun _ => drainNow_discreet
  refine .bind (callFor_discreet _ _) fun _ => .bind (emitFor_discreet _ _ _) fun _ => ?_
  split
  · exact .bind (fire_discreet _ _ _) fun _ => .bind concludes fun _ => .pure _
  · refine .rescue ?_ fun fault => ?_
    · exact .bind (runSteps_discreet _) fun _ => .bind (fire_discreet _ _ _) fun _ =>
        .bind concludes fun _ => .pure _
    · exact .bind (callFor_discreet _ _) fun _ => .bind (fire_discreet _ _ _) fun _ =>
        .bind concludes fun _ => .throw _

theorem Suite.run_discreet (suite : Suite) : suite.run.Discreet := by
  have tests (tests : List Test) : (Suite.runTests tests).Discreet := by
    induction tests with
    | nil => exact .pure _
    | cons test rest ih =>
      have ran : (Suite.runTest test).Discreet :=
        .rescue (.bind test.run_discreet fun _ => .pure _) fun _ => .pure _
      exact .bind ran fun _ => .bind ih fun _ => .pure _
  exact .bind (emitFor_discreet _ _ _) fun _ => .bind (tests suite.tests) fun _ =>
    .bind (emitFor_discreet _ _ _) fun _ => .pure _

end FeatureRunner
