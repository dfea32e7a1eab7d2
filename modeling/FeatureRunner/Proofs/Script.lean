import FeatureRunner.Proofs.Process

/-!
Scripts and what they add keep every law that allows what scripts do. A law may be narrower than
that where it takes something for granted: a script only awaits a task that it has added, and an
emission ends well as long as no listener is known to fail.
-/

namespace FeatureRunner

/-- What a script that is called in a role asks for. In its place the actor only tells of
beginnings. -/
def Request.Scripted (role : Role) : Request → Prop
  | .subscribers speaker event _ => speaker = role ∨ speaker = .actor ∧ event = stepStarted
  | .recorder caller _ => caller = role
  | .subscribe _ (.collector _) | .unsubscribe _ (.collector _) | .record .. | .tail | .outcome _
  | .method _ | .count .. | .collect .. => False
  | _ => True

/-- What performing an action asks for, other than in calls. -/
def Request.Handled : Request → Prop
  | .logSection | .note .. | .method _ | .count .. => True
  | _ => False

/-- What a task that a script adds asks for, other than in calls. -/
def Request.Worked : Request → Prop
  | .logSection | .note .. | .outcome _ | .method _ | .count .. => True
  | .subscribers speaker _ _ => speaker = .actor
  | _ => False

/-- The tasks that a script adds: a callable, and the three of a dispatch. -/
inductive Job : Process → Prop
  | callable (task : Option Callable) : Job (callTask task).toProcess
  | action (step action : Value) (args : List Value) :
      Job (Actor.performStep step (Actor.performAction action args)).toProcess
  | method (step : Value) (name : String) (args : List Value) :
      Job (Actor.performStep step (Actor.performMethod name args)).toProcess
  | passed (step : Value) :
      Job (emitFor .actor stepPassed [step] >>= fun _ => pure .null : Program Value).toProcess
  | result (task : Nat) : Job (Recorder.resultOf task).toProcess

/-- A law that allows the emission of events to those who are known to be subscribed. -/
structure Law.AdmitsListeners (law : Law) : Prop where
  collects : ∀ role event args (subscribers : List Subscriber),
    law.allows (.ask (.subscribers role event args)) →
    law.grants (.subscribers role event args) subscribers →
    ∀ kind, .collector kind ∈ subscribers → law.allows (.ask (.collect kind args))
  calls : ∀ callable args, callable.suspends = false → law.allows (.call .listener callable args)
  leaves : ∀ outcome, law.allows (.leave .listener outcome)

/-- A law that allows all that scripts do that are called in a role. -/
structure Law.AdmitsScripts (law : Law) (role : Role) (suspends : Bool) : Prop
    extends law.AdmitsListeners where
  asks : ∀ request, request.Scripted role → law.allows (.ask request)
  adds : ∀ name body, Job body → law.allows (.add role name body)
  works : law.covers → ∀ body, Job body → body.Obeys law
  awaits : suspends = true → ∀ task name body, law.assumes (.add role name body) →
    law.numbers task → law.allows (.await task)
  waits : suspends = true → (∀ gate, law.allows (.wait gate)) ∧ law.allows .yield

/-- A law that allows all that performing an action does. -/
structure Law.AdmitsActions (law : Law) : Prop where
  asks : ∀ request, request.Handled → law.allows (.ask request)
  performs : ∀ callable args, law.allows (.call .method callable args)
  performed : ∀ outcome, law.allows (.leave .method outcome)

/-- A law that allows all that the tasks do that scripts add, other than in calls. -/
structure Law.AdmitsJobs (law : Law) : Prop extends law.AdmitsListeners where
  asks : ∀ request, request.Worked → law.allows (.ask request)
  fair : ∀ task answer, law.grants (.outcome task) answer → answer ≠ some (.error .cancelled)
  performs : ∀ role callable args, role = .method ∨ role = .task →
    law.allows (.call role callable args)
  performed : ∀ role outcome, role = .method ∨ role = .task → law.allows (.leave role outcome)

/-- Telling a subscriber is a call as a whole. -/
theorem notify_within {law : Law} (admits : law.AdmitsListeners) (args : List Value)
    (subscriber : Subscriber)
    (hears : ∀ kind, subscriber = .collector kind → law.allows (.ask (.collect kind args))) :
    ∃ inner : Program Value,
      subscriber.notify args = Program.within .listener inner ∧ inner.Obeys law := by
  have plain (callable : Callable) (steady : callable.suspends = false) : Program.Obeys law
      fun next => .call .listener callable args next :=
    fun _ _ further => .call (admits.calls callable args steady) fun _ => further
  match subscriber with
  | .callable (.script name signature true _ _ _) =>
    exact ⟨_, rfl, .bind (.ofExcept _) fun _ => .pure _⟩
  | .callable (.script name signature false nameless line actions) => exact ⟨_, rfl, plain _ rfl⟩
  | .callable (.builtin kind) => exact ⟨_, rfl, plain _ rfl⟩
  | .collector event =>
    refine ⟨_, rfl, .bind (.ask (hears event rfl)) fun answer => ?_⟩
    exact .bind (.ofExcept _) fun _ => .pure _

theorem notifyAll_obeys {law : Law} (admits : law.AdmitsListeners) (args : List Value)
    (subscribers : List Subscriber)
    (hears : ∀ kind, .collector kind ∈ subscribers → law.allows (.ask (.collect kind args))) :
    (notifyAll args subscribers).Obeys law := by
  induction subscribers with
  | nil => exact .pure ()
  | cons subscriber rest ih =>
    obtain ⟨inner, same, obeys⟩ := notify_within admits args subscriber fun kind same =>
      hears kind (same ▸ List.mem_cons_self)
    refine .bind ?_ fun _ => ih fun kind member => hears kind (List.mem_cons_of_mem _ member)
    rw [same]
    exact .within obeys admits.leaves

/-- As long as no listener fails, nor does what tells them. -/
theorem notifyAll_ensures {law : Law} (admits : law.AdmitsListeners)
    (calm : ∀ outcome, law.assumes (.leave .listener outcome) → ∃ value, outcome = .ok value)
    (args : List Value) (subscribers : List Subscriber)
    (hears : ∀ kind, .collector kind ∈ subscribers → law.allows (.ask (.collect kind args))) :
    (notifyAll args subscribers).Ensures law (· = .ok ()) := by
  induction subscribers with
  | nil => exact .pure rfl
  | cons subscriber rest ih =>
    obtain ⟨inner, same, obeys⟩ := notify_within admits args subscriber fun kind same =>
      hears kind (same ▸ List.mem_cons_self)
    have told : (subscriber.notify args).Ensures law fun outcome => ∃ value, outcome = .ok value :=
      same ▸ .within obeys admits.leaves fun outcome _ known => calm outcome known
    exact .bind told (fun _ _ => ih fun kind member => hears kind (List.mem_cons_of_mem _ member))
      (by simp)

theorem emitFor_obeys {law : Law} (admits : law.AdmitsListeners) {role : Role} {event : String}
    {args : List Value} (asks : law.allows (.ask (.subscribers role event args))) :
    (emitFor role event args).Obeys law := by
  refine Program.Ensures.bind (Program.Ensures.ask asks) (fun subscribers known => ?_)
    (by rintro _ ⟨_, ⟨⟩, _⟩)
  obtain ⟨_, ⟨⟩, granted⟩ := known
  exact notifyAll_obeys admits args subscribers (admits.collects _ _ _ _ asks granted)

theorem Law.AdmitsJobs.actions {law : Law} (admits : law.AdmitsJobs) : law.AdmitsActions where
  asks request handled := admits.asks request <| by
    cases request with
    | logSection | note | method | count => trivial
    | _ => exact handled.elim
  performs callable args := admits.performs _ callable args (.inl rfl)
  performed outcome := admits.performed _ outcome (.inl rfl)

section Actions

variable {law : Law} (admits : law.AdmitsActions)
include admits

theorem callMethod_obeys (method : Method) (args : List Value) :
    (Actor.callMethod method args).Obeys law := by
  cases method with
  | callable callable =>
    exact .call (admits.performs _ _) fun outcome => admits.performed outcome
  | echo =>
    exact .bind (.log (fun _ => admits.asks _ trivial) (admits.asks _ trivial)) fun _ => .pure _
  | count number =>
    unfold Actor.callMethod
    match args with
    | [] => exact .throw _
    | [amount] => exact .bind (.ask (admits.asks _ trivial)) fun _ => .ofExcept _
    | _ :: _ :: _ => exact .throw _

theorem findMethod_obeys (name : String) : (Actor.findMethod name).Obeys law :=
  .ite (.ask (admits.asks _ trivial)) (.pure none)

theorem performMethod_obeys (name : String) (args : List Value) :
    (Actor.performMethod name args).Obeys law := by
  refine .bind (findMethod_obeys admits name) fun found => ?_
  cases found with
  | some method => exact callMethod_obeys admits method args
  | none => exact .throw _

theorem performAction_obeys (action : Value) (args : List Value) :
    (Actor.performAction action args).Obeys law := by
  unfold Actor.performAction
  split
  · rename_i name
    refine .bind (findMethod_obeys admits name) fun found => ?_
    cases found with
    | some method => exact callMethod_obeys admits method args
    | none =>
      refine .bind (findMethod_obeys admits "do") fun general => ?_
      cases general with
      | some method => exact callMethod_obeys admits method _
      | none => exact .throw _
  · exact .throw _

end Actions

section Jobs

variable {law : Law} (admits : law.AdmitsJobs)
include admits

theorem performStep_obeys (step : Value) {action : Program Value} (obeys : action.Obeys law) :
    (Actor.performStep step action).Obeys law :=
  .rescue obeys fun _ =>
    .bind (emitFor_obeys admits.toAdmitsListeners (admits.asks _ rfl)) fun _ => .throw _

theorem Job.obeys {body : Process} (job : Job body) : body.Obeys law := by
  cases job with
  | callable task =>
    refine Program.Obeys.toProcess ?_
    cases task with
    | none => exact .pure _
    | some callable =>
      exact .call (admits.performs _ _ _ (.inr rfl)) fun _ => admits.performed _ _ (.inr rfl)
  | action step action args =>
    exact (performStep_obeys admits step (performAction_obeys admits.actions action args)).toProcess
  | method step name args =>
    exact (performStep_obeys admits step (performMethod_obeys admits.actions name args)).toProcess
  | passed step =>
    refine Program.Obeys.toProcess ?_
    exact .bind (emitFor_obeys admits.toAdmitsListeners (admits.asks _ rfl)) fun _ => .pure _
  | result task =>
    refine .ask (admits.asks _ trivial) fun _ found fair => ?_
    cases found with
    | some outcome =>
      exact .stop fun cancelled => admits.fair task _ fair (congrArg some cancelled)
    | none => exact .stop (uncancelled_fault _)

end Jobs

section Scripts

variable {law : Law} {role : Role} {suspends : Bool}

mutual

theorem eval_obeys (admits : law.AdmitsScripts role suspends) (args : List Value) :
    (term : Term) → (term.eval args).Obeys law
  | .const _ | .argument _ | .arguments => .pure _
  | .valueOf _ => .bind (.ask (admits.asks _ trivial)) fun _ => .pure _
  | .view .. => .ofExcept _
  | .list items => .bind (evalAll_obeys admits args items) fun _ => .pure _
  | .tuple items => .bind (evalAll_obeys admits args items) fun _ => .pure _
  | .dict entries => .bind (evalEntries_obeys admits args entries) fun _ => .pure _

theorem evalAll_obeys (admits : law.AdmitsScripts role suspends) (args : List Value) :
    (terms : List Term) → (Term.evalAll args terms).Obeys law
  | [] => .pure _
  | term :: rest =>
    .bind (eval_obeys admits args term) fun _ =>
      .bind (evalAll_obeys admits args rest) fun _ => .pure _

theorem evalEntries_obeys (admits : law.AdmitsScripts role suspends) (args : List Value) :
    (entries : List (Term × Term)) → (Term.evalEntries args entries).Obeys law
  | [] => .pure _
  | (key, term) :: rest =>
    .bind (eval_obeys admits args key) fun _ => .bind (eval_obeys admits args term) fun _ =>
      .bind (evalEntries_obeys admits args rest) fun _ => .pure _

end

variable (admits : law.AdmitsScripts role suspends)
include admits

/-- What is known of a task that has been added. -/
def Law.Added (law : Law) (role : Role) (result : Except Failure Nat) : Prop :=
  Uncancelled result ∧ ∀ task, result = .ok task →
    law.numbers task ∧ ∃ name body, law.assumes (.add role name body)

omit admits in
theorem added_error {α : Type} {failure : Failure}
    (plain : Uncancelled (.error failure : Except Failure α)) :
    law.Added role (.error failure) :=
  ⟨plain.error, by rintro other ⟨⟩⟩

theorem addFor_ensures (name : String) {body : Program Value} (job : Job body.toProcess) :
    (Program.addFor role name body).Ensures law (law.Added role) := by
  refine .addFor (admits.adds name _ job) (fun covers => admits.works covers _ job)
    fun known answer numbered => ?_
  cases answer with
  | ok task =>
    refine ⟨uncancelled_ok task, ?_⟩
    rintro other ⟨⟩
    exact ⟨numbered task rfl, _, _, known⟩
  | error fault => exact ⟨uncancelled_fault fault, by rintro other ⟨⟩⟩

theorem dispatch_ensures (name : String) (args : List Value) {action : Program Value}
    (job : ∀ step, Job (Actor.performStep step action).toProcess) :
    (Actor.dispatch role name args action).Ensures law (law.Added role) := by
  have added (name : String) {body : Program Value} (job : Job body.toProcess) :
      (Program.addFor role name body).Obeys law :=
    (addFor_ensures admits name job).weaken fun _ known => known.1
  refine .bind (Program.Obeys.ofExcept _) (fun line _ => ?_) fun _ => added_error
  refine .bind (emitFor_obeys admits.toAdmitsListeners (admits.asks _ (.inr ⟨rfl, rfl⟩)))
    (fun _ _ => ?_) fun _ => added_error
  refine .bind (added line (job _)) (fun performed _ => ?_) fun _ => added_error
  refine .bind (added _ (.passed _)) (fun _ _ => ?_) fun _ => added_error
  exact addFor_ensures admits _ (.result performed)

theorem actFor_ensures (values : List Value) :
    (Actor.actFor role values).Ensures law (law.Added role) := by
  cases values with
  | nil => exact fun _ _ further => further _ ⟨uncancelled_fault _, by rintro other ⟨⟩⟩
  | cons action args => exact dispatch_ensures admits "do" _ fun step => .action step action args

theorem invokeFor_ensures (method : String) (args : List Value) :
    (Actor.invokeFor role method args).Ensures law (law.Added role) := by
  unfold Actor.invokeFor
  split
  · exact actFor_ensures admits args
  · refine .bind (Program.Obeys.ofExcept _) (fun method _ => ?_) fun _ => added_error
    exact dispatch_ensures admits method args fun step => .method step method args

theorem awaitLogged_obeys (waiting : suspends = true) {task : Nat}
    (added : law.Added role (.ok task)) : (awaitLogged task).Obeys law := by
  obtain ⟨numbered, name, body, assumed⟩ := added.2 task rfl
  refine .bind (.ask (admits.asks _ trivial)) fun begun => ?_
  refine .bind (.await (admits.awaits waiting task name body assumed numbered)) fun result => ?_
  exact .ask (admits.asks _ trivial)

theorem action_obeys (args : List Value) (action : Action)
    (steady : action.suspends = true → suspends = true) :
    (action.program role args).Obeys law := by
  have ask (request : Request) (scripted : request.Scripted role) :
      (Program.ask request).Obeys law := .ask (admits.asks request scripted)
  cases action with
  | log term =>
    refine .bind (eval_obeys admits args term) fun value => ?_
    refine .bind (.log (fun _ => admits.asks _ trivial) (admits.asks _ trivial)) fun _ => .pure _
  | give term => exact .bind (eval_obeys admits args term) fun _ => .pure _
  | raise kind message => exact .throw _
  | act terms =>
    refine .bind (evalAll_obeys admits args terms) fun values => ?_
    exact .bind ((actFor_ensures admits values).weaken fun _ known => known.1) fun _ => .pure _
  | invoke method terms =>
    refine .bind (evalAll_obeys admits args terms) fun values => ?_
    exact .bind ((invokeFor_ensures admits method values).weaken fun _ known => known.1)
      fun _ => .pure _
  | awaitAct terms =>
    refine .bind (evalAll_obeys admits args terms) fun values => ?_
    refine Program.Ensures.bind (actFor_ensures admits values) (fun task added => ?_)
      fun _ known => known.1.error
    exact Program.Obeys.bind (awaitLogged_obeys admits (steady rfl) added) fun _ => .pure _
  | awaitInvoke method terms =>
    refine .bind (evalAll_obeys admits args terms) fun values => ?_
    refine Program.Ensures.bind (invokeFor_ensures admits method values) (fun task added => ?_)
      fun _ known => known.1.error
    exact Program.Obeys.bind (awaitLogged_obeys admits (steady rfl) added) fun _ => .pure _
  | wait gate => exact .bind (.wait ((admits.waits (steady rfl)).1 gate)) fun _ => .pure _
  | yield times => exact .bind (.yield (admits.waits (steady rfl)).2 times) fun _ => .pure _
  | advance microseconds => exact .bind (ask _ trivial) fun _ => .pure _
  | set name term =>
    exact .bind (eval_obeys admits args term) fun _ => .bind (ask _ trivial) fun _ => .pure _
  | increase name term =>
    refine .bind (eval_obeys admits args term) fun amount => ?_
    refine .bind (.ofExcept _) fun whole => .bind (ask _ trivial) fun known => ?_
    exact .bind (.ofExcept _) fun _ => .bind (ask _ trivial) fun _ => .pure _
  | expect name term =>
    refine .bind (eval_obeys admits args term) fun wanted => .bind (ask _ trivial) fun found => ?_
    exact .ite (.pure _) (.throw _)
  | add name task =>
    exact .bind ((addFor_ensures admits name (.callable task)).weaken fun _ known => known.1)
      fun _ => .pure _
  | subscribe event listener => exact .bind (ask _ trivial) fun _ => .pure _
  | unsubscribe event listener => exact .bind (ask _ trivial) fun _ => .pure _
  | emit event terms =>
    refine .bind (evalAll_obeys admits args terms) fun values => ?_
    exact .bind (emitFor_obeys admits.toAdmitsListeners (admits.asks _ (.inl rfl))) fun _ =>
      .pure _
  | recorder call =>
    exact .bind (.bind (ask _ rfl) fun _ => .ofExcept _) fun _ => .pure _

theorem runActions_obeys (args : List Value) (actions : List Action)
    (steady : ∀ action ∈ actions, action.suspends = true → suspends = true) :
    (runActions role args actions).Obeys law := by
  induction actions with
  | nil => exact .pure _
  | cons action rest ih =>
    refine .bind (action_obeys admits args action (steady action (by simp))) fun result => ?_
    cases result with
    | some value => exact .pure value
    | none => exact ih fun action member => steady action (by simp [member])

end Scripts

/-- A callable keeps every law that allows what scripts do in its role. -/
theorem Callable.process_obeys {law : Law} {role : Role} (callable : Callable)
    (admits : law.AdmitsScripts role callable.suspends) (args : List Value) :
    (callable.process role args).Obeys law := by
  refine Program.Obeys.toProcess ?_
  cases callable with
  | builtin kind => exact .ofExcept _
  | script name signature suspends nameless line actions =>
    refine .bind (.ofExcept _) fun bound => runActions_obeys admits bound _ ?_
    intro action member waiting
    cases suspends with
    | true => rfl
    | false => simp_all

end FeatureRunner
