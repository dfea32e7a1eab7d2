import FeatureRunner.Proofs.Recorder.Trace
import FeatureRunner.Proofs.World.Triple

/-!
The laws of those that are at work while a suite runs. A bystander emits no event for the run,
calls no step body and adds nothing; a step body adds bystanders. Whoever adds without being
allowed to is not followed further.
-/

namespace FeatureRunner
open FeatureRunner.World

/-- What is known of all that is done: no listener fails, and only runs and steps add tasks. -/
def Act.Granted : Act → Prop
  | .leave .listener outcome => ∃ value, outcome = .ok value
  | .add role _ _ => role = .run ∨ role = .step
  | _ => True

instance : DecidablePred Act.Granted
  | .leave .listener (.ok value) => isTrue ⟨value, rfl⟩
  | .leave .listener (.error _) => isFalse nofun
  | .add role _ _ => inferInstanceAs (Decidable (role = .run ∨ role = .step))
  | .leave .run _ | .leave .step _ | .leave .method _ | .leave .task _ | .leave .notice _
  | .leave .actor _ | .leave .outside _ => isTrue trivial
  | .ask _ | .call .. | .await _ | .join _ | .wait _ | .yield => isTrue trivial

/-- What a process may do that calls and adds nothing on behalf of a run or a step. It speaks for
some roles and waits for some tasks only. -/
def Act.Modest (speaks : Role → Prop) (joins : Nat → Prop) : Act → Prop
  | .ask (.subscribers role _ _) | .ask (.recorder role _) => speaks role
  | .call role _ _ | .leave role _ | .add role _ _ => role ≠ .run ∧ role ≠ .step
  | .await _ => False
  | .join task => joins task
  | _ => True

def modest (speaks : Role → Prop) (joins : Nat → Prop) : Law where
  allows := Act.Modest speaks joins
  assumes := Act.Granted
  covers := False

/-- What a bystander may do: nothing on behalf of a run, and it waits for earlier tasks only. -/
abbrev Act.Aside (bound : Nat) : Act → Prop :=
  Act.Modest (· ≠ .run) (· < bound)

abbrev bystander (bound : Nat) : Law :=
  modest (· ≠ .run) (· < bound)

/-- What a step body may do. -/
def Act.Steps : Act → Prop
  | .add role _ body => role ≠ .run ∧ (role = .step → body.Obeys (bystander 0))
  | .await _ => True
  | act => act.Aside 0

def stepping : Law where
  allows := Act.Steps
  assumes := Act.Granted
  covers := False

section Modest

variable {speaks : Role → Prop} {joins : Nat → Prop}

theorem modest_listeners : (modest speaks joins).AdmitsListeners where
  collects _ _ _ _ _ _ _ _ := trivial
  calls _ _ _ := ⟨nofun, nofun⟩
  leaves _ := ⟨nofun, nofun⟩

variable (others : ∀ role, role ≠ .run → speaks role)
include others

theorem modest_jobs : (modest speaks joins).AdmitsJobs where
  toAdmitsListeners := modest_listeners
  asks request worked := by
    cases request with
    | subscribers speaker event args =>
      cases worked
      exact others _ nofun
    | _ => trivial
  fair _ _ fair := fair
  performs role callable args performer := by
    rcases performer with rfl | rfl <;> exact ⟨nofun, nofun⟩
  performed role outcome performer := by
    rcases performer with rfl | rfl <;> exact ⟨nofun, nofun⟩

theorem modest_scripts {role : Role} {suspends : Bool} (apart : role ≠ .run ∧ role ≠ .step) :
    (modest speaks joins).AdmitsScripts role suspends where
  toAdmitsListeners := modest_listeners
  asks request scripted := by
    cases request with
    | subscribers speaker event args =>
      rcases scripted with rfl | ⟨rfl, rfl⟩
      · exact others _ apart.1
      · exact others _ nofun
    | recorder caller call =>
      cases scripted
      exact others _ apart.1
    | _ => trivial
  adds _ _ _ := apart
  works covers := covers.elim
  awaits _ _ _ _ adds := adds.elim (absurd · apart.1) (absurd · apart.2)
  waits _ := ⟨fun _ => trivial, trivial⟩

theorem modest_closed : (modest speaks joins).Closed :=
  fun _ callable args apart => callable.process_obeys (modest_scripts others apart) args

end Modest

theorem bystander_closed (bound : Nat) : (bystander bound).Closed :=
  modest_closed fun _ apart => apart

theorem stepping_listeners : stepping.AdmitsListeners where
  collects _ _ _ _ _ _ _ _ := trivial
  calls _ _ _ := ⟨nofun, nofun⟩
  leaves _ := ⟨nofun, nofun⟩

theorem stepping_scripts {role : Role} {suspends : Bool} (apart : role ≠ .run) :
    stepping.AdmitsScripts role suspends where
  toAdmitsListeners := stepping_listeners
  asks request scripted := by
    cases request with
    | subscribers speaker event args =>
      rcases scripted with rfl | ⟨rfl, rfl⟩
      · exact apart
      · exact nofun
    | recorder caller call =>
      cases scripted
      exact apart
    | _ => trivial
  adds _ _ job := ⟨apart, fun _ => job.obeys (modest_jobs fun _ apart => apart)⟩
  works covers := covers.elim
  awaits _ _ _ _ _ _ := trivial
  waits _ := ⟨fun _ => trivial, trivial⟩

theorem stepping_closed : stepping.Closed :=
  fun _ callable args apart => callable.process_obeys (stepping_scripts apart.1) args

/-- What waits for no more speaks for no more may be known as less modest. -/
theorem Process.Keeps.less_modest {speaks speaks' : Role → Prop} {joins joins' : Nat → Prop}
    {stops : Process → Prop} {process : Process} (keeps : process.Keeps (modest speaks joins) stops)
    (louder : ∀ role, speaks role → speaks' role) (longer : ∀ task, joins task → joins' task) :
    process.Keeps (modest speaks' joins') stops := by
  refine keeps.mono_law (fun act allowed => ?_) (fun _ known => known) (fun _ _ known => known)
    (fun _ known => known) fun covers => covers
  cases act with
  | join task => exact longer task allowed
  | ask request =>
    cases request with
    | subscribers role event args => exact louder role allowed
    | recorder role call => exact louder role allowed
    | _ => exact allowed
  | _ => exact allowed

/-! ## The chain -/

/-- A law that allows to take the outcomes of tasks, none of which is known to be cancelled. -/
structure Law.AdmitsDrains (law : Law) : Prop where
  outcomes : ∀ task, law.allows (.ask (.outcome task))
  fair : ∀ task answer, law.grants (.outcome task) answer → answer ≠ some (.error .cancelled)

section Drains

variable {law : Law} (admits : law.AdmitsDrains) {task : Nat}
include admits

theorem resultOf_obeys : (Recorder.resultOf task).Obeys law := by
  have asks : (Program.ask (.outcome task)).Ensures law _ := .ask (admits.outcomes task)
  refine Program.Ensures.bind asks (fun answer known => ?_) (by rintro _ ⟨_, ⟨⟩, _⟩)
  obtain ⟨_, ⟨⟩, fair⟩ := known
  cases answer with
  | some outcome =>
    exact Program.Obeys.ofOutcome fun cancelled => admits.fair _ _ fair (congrArg some cancelled)
  | none => exact Program.Obeys.throw _

theorem settled_obeys (waits : law.allows (.join task)) : (Recorder.settled task).Obeys law := by
  have asks : (Program.ask (.outcome task)).Ensures law _ := .ask (admits.outcomes task)
  refine Program.Ensures.bind asks (fun answer known => ?_) (by rintro _ ⟨_, ⟨⟩, _⟩)
  obtain ⟨_, ⟨⟩, fair⟩ := known
  cases answer with
  | some outcome =>
    exact Program.Obeys.ofOutcome fun cancelled => admits.fair _ _ fair (congrArg some cancelled)
  | none => exact Program.Obeys.bind (.join waits) fun _ => resultOf_obeys admits

end Drains

section Chain

/-- A task of the chain keeps a law if its work does. -/
theorem task_keeps {law : Law} (admits : law.AdmitsDrains)
    (records : ∀ session line, law.allows (.ask (.record session line))) {session : Nat}
    {previous : Option Nat} {name : String} {body : Process}
    (waits : ∀ number, previous = some number → law.allows (.join number)) (work : body.Obeys law) :
    (Recorder.task session previous name (.ofProcess body)).toProcess.Obeys law := by
  refine Program.Obeys.toProcess (.bind ?_ fun _ => .bind (.ask (records _ _)) fun _ => ?_)
  · cases previous with
    | none => exact .pure ()
    | some previous => exact .bind (settled_obeys admits (waits previous rfl)) fun _ => .pure ()
  · exact .rescue (.ofProcess work) fun fault => .bind (.ask (records _ _)) fun _ => .throw fault

theorem abandoned_keeps {law : Law} {previous : Nat} (waits : law.allows (.join previous)) :
    (Recorder.abandoned previous).toProcess.Obeys law :=
  Program.Obeys.toProcess (.bind (.join waits) fun _ => .pure _)

variable {speaks : Role → Prop} {joins : Nat → Prop}

theorem modest_drains : (modest speaks joins).AdmitsDrains where
  outcomes _ := trivial
  fair _ _ fair := fair

end Chain

/-! ## Runs -/

/-- The body of a task that emits an event. -/
def announcement (event : String) (args : List Value) : Process :=
  Program.toProcess do
    emitFor .run event args
    return .null

theorem announcement_obeys {law : Law} (admits : law.AdmitsListeners) {event : String}
    {args : List Value} (asks : law.allows (.ask (.subscribers .run event args))) :
    (announcement event args).Obeys law :=
  Program.Obeys.toProcess (.bind (emitFor_obeys admits asks) fun _ => .pure _)

/-- A law that allows to drain the chain. -/
structure Law.AdmitsTails (law : Law) : Prop extends law.AdmitsDrains where
  tail : law.allows (.ask .tail)
  joins : ∀ task, law.grants .tail (some task) → law.allows (.join task)

theorem drainNow_obeys {law : Law} (admits : law.AdmitsTails) : Recorder.drainNow.Obeys law := by
  have asks : (Program.ask .tail).Ensures law _ := .ask admits.tail
  refine Program.Ensures.bind asks (fun tail known => ?_) (by rintro _ ⟨_, ⟨⟩, _⟩)
  obtain ⟨_, ⟨⟩, granted⟩ := known
  cases tail with
  | none => exact Program.Obeys.pure ()
  | some task =>
    exact Program.Obeys.bind (settled_obeys admits.toAdmitsDrains (admits.joins task granted))
      fun _ => .pure ()

/-- A law that allows all that runs do. -/
structure Law.AdmitsRuns (law : Law) : Prop extends law.AdmitsListeners, law.AdmitsTails where
  emits : ∀ event args, law.allows (.ask (.subscribers .run event args))
  operates : ∀ call, law.allows (.ask (.recorder .run call))
  steps : ∀ callable args, law.allows (.call .step callable args)
  stepped : ∀ outcome, law.allows (.leave .step outcome)
  adds : ∀ name event args, law.allows (.add .run name (announcement event args))
  works : law.covers → ∀ event args, (announcement event args).Obeys law

section Runs

variable {law : Law} (admits : law.AdmitsRuns)
include admits

theorem runSteps_obeys (steps : List ResolvedStep) : (Test.runSteps steps).Obeys law := by
  induction steps with
  | nil => exact .pure ()
  | cons step rest ih =>
    exact .bind (.call (admits.steps _ _) admits.stepped) fun _ =>
      .bind (drainNow_obeys admits.toAdmitsTails) fun _ => ih

theorem emits_obeys (event : String) (args : List Value) : (emitFor .run event args).Obeys law :=
  emitFor_obeys admits.toAdmitsListeners (admits.emits event args)

theorem fire_obeys (name event : String) (args : List Value) :
    (Test.fire name event args).Obeys law :=
  .bind (.addFor (admits.adds name event args) fun covers => admits.works covers event args)
    fun _ => .pure ()

theorem conclude_obeys (test : Test) : test.conclude.Obeys law :=
  .bind (fire_obeys admits _ _ _) fun _ => drainNow_obeys admits.toAdmitsTails

theorem callFor_obeys (call : RecorderCall) : (Recorder.callFor .run call).Obeys law :=
  .bind (.ask (admits.operates call)) fun _ => .ofExcept _

theorem Test.run_obeys (test : Test) : test.run.Obeys law := by
  refine .bind (callFor_obeys admits _) fun _ => .bind (emits_obeys admits _ _) fun _ => ?_
  refine .ite ?_ (.rescue ?_ fun fault => ?_)
  · exact .bind (fire_obeys admits _ _ _) fun _ => .bind (conclude_obeys admits test) fun _ =>
      .pure _
  · exact .bind (runSteps_obeys admits _) fun _ => .bind (fire_obeys admits _ _ _) fun _ =>
      .bind (conclude_obeys admits test) fun _ => .pure _
  · exact .bind (callFor_obeys admits _) fun _ => .bind (fire_obeys admits _ _ _) fun _ =>
      .bind (conclude_obeys admits test) fun _ => .throw fault

theorem Suite.runTests_obeys (tests : List Test) : (Suite.runTests tests).Obeys law := by
  induction tests with
  | nil => exact .pure _
  | cons test rest ih =>
    refine .bind (.rescue (.bind (test.run_obeys admits) fun _ => .pure _) fun _ => .pure _)
      fun _ => .bind ih fun _ => .pure _

theorem Suite.run_obeys (suite : Suite) : suite.run.Obeys law :=
  .bind (emits_obeys admits _ _) fun _ => .bind (Suite.runTests_obeys admits _) fun _ =>
    .bind (emits_obeys admits _ _) fun _ => .pure _

end Runs

theorem mute_runs : mute.AdmitsRuns where
  toAdmitsListeners := mute_listeners
  outcomes := by simp [mute]
  fair _ _ fair := fair
  emits := by simp [mute]
  operates := by simp [mute]
  steps := by simp [mute]
  stepped := by simp [mute]
  adds := by simp [mute]
  works _ event args := announcement_obeys mute_listeners (by simp [mute])
  tail := by simp [mute]
  joins := by simp [mute]

end FeatureRunner
