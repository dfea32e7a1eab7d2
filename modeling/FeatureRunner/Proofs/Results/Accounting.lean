import FeatureRunner.Proofs.Results.Collect
import FeatureRunner.Proofs.Suite.Lifecycle
import FeatureRunner.Proofs.World.Protocol

/-!
The collector hears of every event that a run emits, once and in order. An emission is in the debt
of the collector until it has told it, and nobody else acts meanwhile: so what the collector has
heard and what the present process still owes to it are together what the ledger has.
-/

namespace FeatureRunner
open FeatureRunner.World

/-! ## What a process owes to the collector -/

def Listener.collector? : Listener → Option CollectorEvent
  | .collector kind => some kind
  | .scripted _ => none

def Subscriber.collector? : Subscriber → Option CollectorEvent
  | .collector kind => some kind
  | .callable _ => none

/-- What an emission to some subscribers owes to the collector. -/
def owed (args : List Value) (subscribers : List Subscriber) : List Due :=
  (subscribers.filterMap Subscriber.collector?).map (·, args)

/-- A process owes something while it emits an event for a run, and then tells and waits for nobody
else. Events that are emitted for others are none of the collector's. -/
def accounting : Protocol (List Due) where
  allows debts
    | .ask (.subscribers role _ _) => role = .run → debts = []
    | .ask (.collect kind args) => debts.head? = some (kind, args)
    | .ask (.subscribe _ listener) | .ask (.unsubscribe _ listener) => listener.collector? = none
    | .call role callable _ => role ≠ .run ∧ (callable.suspends = true → debts = [])
    | act => act.Waits → debts = []
  assumes := Act.Granted
  grants
    | .subscribers role _ args, subscribers => role ≠ .run → owed args subscribers = []
    | request, answer => request.Fair answer
  heard debts
    | .subscribers .run _ args, subscribers => owed args subscribers
    | .collect _ _, _ => debts.tail
    | _, _ => debts
  first := []
  covers := True

/-- What is done apart from emitting events for a run. -/
def unowing (suspends : Bool) : Law where
  allows
    | .ask (.subscribers role _ _) => role ≠ .run
    | .ask (.collect _ _) => False
    | .ask (.subscribe _ listener) | .ask (.unsubscribe _ listener) => listener.collector? = none
    | .call role callable _ => role ≠ .run ∧ (callable.suspends = true → suspends = true)
    | .add _ _ body => body.Heeds accounting (Protocol.Back []) []
    | act => act.Waits → suspends = true
  assumes _ := True
  grants := accounting.grants
  covers := False

section Unowing

variable {debts : List Due} {suspends : Bool}

theorem unowing_steady (free : suspends = true → debts = []) :
    accounting.Steady (unowing suspends) (· = debts) where
  allows _ act same allowed := by
    subst same
    cases act with
    | ask request =>
      cases request with
      | subscribers role event args => exact fun run => absurd run allowed
      | collect kind args => exact allowed.elim
      | subscribe event listener => exact allowed
      | unsubscribe event listener => exact allowed
      | _ => exact fun waits => waits.elim
    | call role callable args => exact ⟨allowed.1, fun slow => free (allowed.2 slow)⟩
    | leave role outcome => exact fun waits => waits.elim
    | add role name body => exact fun waits => waits.elim
    | _ => exact fun waits => free (allowed waits)
  assumes _ _ := trivial
  grants _ _ granted := granted
  numbers _ := trivial
  heard _ request answer same allowed _ := by
    subst same
    cases request with
    | subscribers role event args =>
      cases role with
      | run => exact absurd rfl allowed
      | _ => rfl
    | collect kind args => exact allowed.elim
    | _ => rfl
  after _ _ same _ := same
  works _ _ _ _ work := work

theorem unowing_listeners : (unowing suspends).AdmitsListeners where
  collects role event args subscribers other none kind member := by
    have owes : (kind, args) ∈ owed args subscribers :=
      List.mem_map.2 ⟨kind, List.mem_filterMap.2 ⟨_, member, rfl⟩, rfl⟩
    rw [none other] at owes
    cases owes
  calls callable args fast := ⟨nofun, fun slow => by rw [fast] at slow; cases slow⟩
  leaves _ waits := waits.elim

theorem unowing_fair (task : Nat) (answer : Option Outcome)
    (granted : (unowing suspends).grants (.outcome task) answer) : answer ≠ some (.error .cancelled) :=
  granted

theorem unowing_jobs : (unowing true).AdmitsJobs where
  toAdmitsListeners := unowing_listeners
  asks request worked := by
    cases request with
    | subscribers speaker event args =>
      cases worked
      exact nofun
    | collect kind args => exact worked
    | subscribe event listener => exact worked.elim
    | unsubscribe event listener => exact worked.elim
    | _ => exact fun waits => waits.elim
  fair := unowing_fair
  performs role callable args performer := by
    rcases performer with rfl | rfl <;> exact ⟨nofun, fun _ => rfl⟩
  performed _ _ _ waits := waits.elim

theorem Job.owes_nothing {body : Process} (job : Job body) :
    body.Heeds accounting (Protocol.Back []) [] :=
  (job.obeys unowing_jobs).heeds (unowing_steady fun _ => rfl) rfl
    fun _ _ same ended => .stop ⟨same, ended⟩

theorem unowing_scripts {role : Role} (apart : role ≠ .run) :
    (unowing suspends).AdmitsScripts role suspends where
  toAdmitsListeners := unowing_listeners
  asks request scripted := by
    cases request with
    | subscribers speaker event args =>
      rcases scripted with rfl | ⟨rfl, rfl⟩
      · exact apart
      · exact nofun
    | subscribe event listener => cases listener <;> first | rfl | exact scripted.elim
    | unsubscribe event listener => cases listener <;> first | rfl | exact scripted.elim
    | collect kind args => exact scripted
    | _ => exact fun waits => waits.elim
  adds _ _ job := job.owes_nothing
  works covers := covers.elim
  awaits slow _ _ _ _ _ _ := slow
  waits slow := ⟨fun _ _ => slow, fun _ => slow⟩

end Unowing

theorem accounting_closed : accounting.Closed := by
  intro debts role callable args allowed
  exact (callable.process_obeys (unowing_scripts allowed.1) args).heeds (unowing_steady allowed.2) rfl
    fun _ _ same ended => .stop ⟨same, ended⟩

/-! ## Runs -/

section Runs

variable {debts : List Due}

/-- Telling a subscriber settles what is owed to it. -/
theorem notify_settles (args : List Value) (subscriber : Subscriber) :
    (subscriber.notify args).Leads accounting (owed args [subscriber] ++ debts) fun result left =>
      (∃ value, result = .ok value) ∧ left = debts := by
  have call (callable : Callable) (fast : callable.suspends = false) : Program.Leads accounting debts
      (fun _ left => left = debts) fun next => .call .listener callable args next := by
    intro stops next ends
    exact .call ⟨nofun, fun slow => by rw [fast] at slow; cases slow⟩ fun _ outcome _ => ends _ _ rfl
  have checks {α : Type} (answer : Except Fault α) : Program.Leads accounting debts
      (fun (_ : Outcome) left => left = debts)
      (Program.ofExcept answer >>= fun _ => pure Value.null) := by
    cases answer with
    | ok value => exact Program.Leads.pure rfl
    | error fault => exact Program.Leads.throw rfl
  have told {inner : Program Value} {owes : List Due}
      (inside : inner.Leads accounting owes fun _ left => left = debts) :
      (Program.within .listener inner).Leads accounting owes fun result left =>
        (∃ value, result = .ok value) ∧ left = debts :=
    inside.within (fun _ _ _ waits => waits.elim) fun _ _ same known => ⟨known, same⟩
  match subscriber with
  | .callable (.script name signature true _ _ _) =>
    exact told (checks _)
  | .callable (.script name signature false nameless line actions) => exact told (call _ rfl)
  | .callable (.builtin kind) => exact told (call _ rfl)
  | .collector kind =>
    exact told (.askThen rfl fun answer _ => checks answer)

theorem notifyAll_settles (args : List Value) (subscribers : List Subscriber) :
    (notifyAll args subscribers).Leads accounting (owed args subscribers) fun result left =>
      result = .ok () ∧ left = [] := by
  induction subscribers with
  | nil => exact .pure ⟨rfl, rfl⟩
  | cons subscriber rest ih =>
    have split : owed args (subscriber :: rest) = owed args [subscriber] ++ owed args rest := by
      rw [owed, ← List.singleton_append, List.filterMap_append, List.map_append]
      rfl
    rw [split]
    refine .bind (notify_settles args subscriber) (fun _ left known => ?_)
      (by rintro _ _ ⟨⟨_, ⟨⟩⟩, _⟩)
    rw [known.2]
    exact ih

theorem emitFor_settles (event : String) (args : List Value) :
    (emitFor .run event args).Leads accounting [] fun result left => result = .ok () ∧ left = [] :=
  .askThen (fun _ => rfl) fun subscribers _ => notifyAll_settles args subscribers

theorem announcement_settles (event : String) (args : List Value) :
    (announcement event args).Heeds accounting (Protocol.Back []) [] := by
  have leads : (emitFor .run event args >>= fun _ => pure .null : Program Value).Leads accounting []
      fun result left => Uncancelled result ∧ left = [] :=
    .bind (emitFor_settles event args) (fun _ _ known => .pure ⟨uncancelled_ok _, known.2⟩)
      (by rintro _ _ ⟨⟨⟩, _⟩)
  exact leads fun _ _ known => .stop ⟨known.2, known.1⟩

/-- At the end of a part of a run nothing is owed. -/
def Program.Squares {α : Type} (program : Program α) : Prop :=
  program.Leads accounting [] fun result left => left = [] ∧ Uncancelled result

namespace Program.Squares

variable {α β : Type} {program : Program α}

theorem pure (value : α) : (Pure.pure value : Program α).Squares :=
  Leads.pure ⟨rfl, uncancelled_ok value⟩

theorem throw (fault : Fault) : (Program.throw fault : Program α).Squares :=
  Leads.throw ⟨rfl, uncancelled_fault fault⟩

theorem bind {next : α → Program β} (first : program.Squares)
    (second : ∀ value, (next value).Squares) : (program >>= next).Squares := by
  refine Leads.bind first (fun value left known => ?_) fun _ _ known => ⟨known.1, known.2.error⟩
  rw [known.1]
  exact second value

theorem rescue {handler : Fault → Program α} (first : program.Squares)
    (handles : ∀ fault, (handler fault).Squares) : (program.rescue handler).Squares := by
  refine Leads.rescue first (fun fault left known => ?_) (fun _ _ known => known) fun _ known => known
  rw [known.1]
  exact handles fault

theorem ofObeys (obeys : program.Obeys (unowing true)) : program.Squares :=
  Leads.ofEnsures obeys (unowing_steady fun _ => rfl) rfl

end Program.Squares

theorem callFor_squares (call : RecorderCall) : (Recorder.callFor .run call).Squares :=
  .ofObeys (.bind (.ask fun waits => waits.elim) fun _ => .ofExcept _)

theorem drainNow_squares : Recorder.drainNow.Squares := by
  refine .ofObeys (drainNow_obeys ?_)
  constructor
  case tail => exact fun waits => waits.elim
  case joins => exact fun _ _ _ => rfl
  case toAdmitsDrains => exact ⟨fun _ waits => waits.elim, unowing_fair⟩

theorem emitFor_squares (event : String) (args : List Value) : (emitFor .run event args).Squares :=
  (emitFor_settles event args).weaken fun _ _ known => ⟨known.2, known.1 ▸ uncancelled_ok _⟩

theorem fire_squares (name event : String) (args : List Value) :
    (Test.fire name event args).Squares := by
  have adds : (Program.addFor .run name (do
      emitFor .run event args
      return .null)).Squares := by
    refine .addFor (fun waits => waits.elim) (fun _ => announcement_settles event args) fun answer => ?_
    refine ⟨rfl, ?_⟩
    cases answer with
    | ok task => exact uncancelled_ok task
    | error fault => exact uncancelled_fault fault
  exact .bind adds fun _ => .pure _

theorem step_squares (step : ResolvedStep) : step.run.Squares := by
  intro stops next ends
  exact .call ⟨nofun, fun _ => rfl⟩ fun _ outcome plain =>
    .leave (fun waits => waits.elim) fun _ => ends _ _ ⟨rfl, plain⟩

theorem runSteps_squares (steps : List ResolvedStep) : (Test.runSteps steps).Squares := by
  induction steps with
  | nil => exact .pure _
  | cons step rest ih => exact .bind (step_squares step) fun _ => .bind drainNow_squares fun _ => ih

theorem conclude_squares (test : Test) : test.conclude.Squares :=
  .bind (fire_squares _ _ _) fun _ => drainNow_squares

theorem Test.run_squares (test : Test) : test.run.Squares := by
  refine .bind (callFor_squares _) fun _ => .bind (emitFor_squares _ _) fun _ => ?_
  split
  · exact .bind (fire_squares _ _ _) fun _ => .bind (conclude_squares test) fun _ => .pure _
  · refine .rescue ?_ fun fault => ?_
    · exact .bind (runSteps_squares _) fun _ => .bind (fire_squares _ _ _) fun _ =>
        .bind (conclude_squares test) fun _ => .pure _
    · exact .bind (callFor_squares _) fun _ => .bind (fire_squares _ _ _) fun _ =>
        .bind (conclude_squares test) fun _ => .throw fault

theorem runTests_squares (tests : List Test) : (Suite.runTests tests).Squares := by
  induction tests with
  | nil => exact .pure _
  | cons test rest ih =>
    have runs : (Suite.runTest test).Squares :=
      .rescue (.bind test.run_squares fun _ => .pure _) fun _ => .pure _
    exact .bind runs fun _ => .bind ih fun _ => .pure _

theorem Suite.run_heeds (suite : Suite) :
    suite.run.toProcess.Heeds accounting (Protocol.Back []) [] := by
  have squares : suite.run.Squares :=
    .bind (emitFor_squares _ _) fun _ => .bind (runTests_squares suite.tests) fun _ =>
      .bind (emitFor_squares _ _) fun _ => .pure _
  exact squares fun _ _ known => .stop known

/-! ## Tasks of the chain -/

theorem settled_squares (task : Nat) : (Recorder.settled task).Squares :=
  .ofObeys (settled_obeys ⟨fun _ waits => waits.elim, unowing_fair⟩ fun _ => rfl)

/-- A task of the chain owes nothing around its work. -/
theorem task_heeds {session : Nat} {previous : Option Nat} {name : String} {body : Process}
    (work : body.Heeds accounting (Protocol.Back []) []) :
    (Recorder.task session previous name (.ofProcess body)).toProcess.Heeds accounting
      (Protocol.Back []) [] := by
  have record (line : String) : (Program.ask (.record session line)).Squares :=
    .ofObeys (.ask fun waits => waits.elim)
  have works : (Program.ofProcess body).Squares := by
    intro stops next ends
    refine work.andThen fun left process back => ?_
    obtain ⟨rfl, ended⟩ := back
    obtain ⟨outcome, rfl, plain⟩ := ended.eq_done
    exact ends _ _ ⟨rfl, plain⟩
  have waits : (Recorder.awaitPrevious previous).Squares := by
    cases previous with
    | none => exact .pure ()
    | some previous => exact .bind (settled_squares previous) fun _ => .pure ()
  have squares : (Recorder.task session previous name (.ofProcess body)).Squares :=
    .bind waits fun _ => .bind (record name) fun _ =>
      .rescue works fun fault => .bind (record _) fun _ => .throw fault
  exact squares fun _ _ known => .stop known

theorem abandoned_heeds (previous : Nat) :
    (Recorder.abandoned previous).toProcess.Heeds accounting (Protocol.Back []) [] := by
  have squares : (Recorder.abandoned previous).Squares :=
    .ofObeys (.bind (.join fun _ => rfl) fun _ => .pure _)
  exact squares fun _ _ known => .stop known

end Runs

end FeatureRunner
