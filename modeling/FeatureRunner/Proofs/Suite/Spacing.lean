import FeatureRunner.Proofs.Recorder.Deeds
import FeatureRunner.Proofs.Suite.Aside
import FeatureRunner.Proofs.World.Protocol

/-!
What has ended when a step begins. Behind a step body a test takes the chain as it then is, and calls
the next body only when that chain has ended: so every task that was added before the first body
came back has ended, whoever added it. What is added later, while the chain is drained, has not.
-/

namespace FeatureRunner
open FeatureRunner.World

/-- How far a test is behind its last step body. -/
inductive Pace
  /-- No step body has come back yet. -/
  | free
  | inside
  | returned
  /-- The chain has been taken, and a task is its last. -/
  | asked (task : Nat)
  | drained
  | lost
  deriving DecidableEq

namespace Pace

/-- Where anything else than taking the chain leads. -/
def past : Pace → Pace
  | returned => lost
  | pace => pace

theorem past_of_ne {pace : Pace} (apart : pace ≠ returned) : pace.past = pace := by
  cases pace with
  | returned => exact absurd rfl apart
  | _ => rfl

theorem past_ne (pace : Pace) : pace.past ≠ returned := by
  cases pace <;> simp [past]

def heard (pace : Pace) : (request : Request) → request.Answer → Pace
  | .subscribers .run event _, _ => if event = testStarted then free else pace.past
  | .tail, answer =>
    match pace, answer with
    | returned, some task => asked task
    | returned, none => drained
    | pace, _ => pace
  | .outcome task, answer => if pace = asked task ∧ answer.isSome then drained else pace.past
  | _, _ => pace.past

def after (pace : Pace) : Act → Pace
  | .call .step _ _ => inside
  | .leave .step _ => returned
  | _ => pace.past

end Pace

open Pace

/-- A step body is called at the beginning of a test, or with the chain drained behind the last. -/
def pacing : Protocol Pace where
  allows pace
    | .call role _ _ => role ≠ .run ∧ (role = .step → pace = free ∨ pace = drained)
    | act => act.Waits → pace ≠ returned
  heard := Pace.heard
  after := Pace.after
  first := free
  covers := False

/-- What is done apart from calling steps and draining the chain. -/
def unpaced : Law where
  allows
    | .ask (.subscribers role _ _) => role ≠ .run
    | .ask .tail | .ask (.outcome _) => False
    | .call role _ _ | .leave role _ => role ≠ .run ∧ role ≠ .step
    | _ => True
  assumes _ := True
  covers := False

theorem unpaced_listeners : unpaced.AdmitsListeners where
  collects _ _ _ _ _ _ _ _ := trivial
  calls _ _ _ := ⟨nofun, nofun⟩
  leaves _ := ⟨nofun, nofun⟩

theorem unpaced_scripts {role : Role} (apart : role ≠ .run) (suspends : Bool) :
    unpaced.AdmitsScripts role suspends where
  toAdmitsListeners := unpaced_listeners
  asks request scripted := by
    cases request with
    | subscribers speaker event args =>
      rcases scripted with rfl | ⟨rfl, rfl⟩
      · exact apart
      · exact nofun
    | tail => exact scripted
    | outcome task => exact scripted
    | _ => trivial
  adds _ _ _ := trivial
  works covers := covers.elim
  awaits _ _ _ _ _ _ := trivial
  waits _ := ⟨fun _ => trivial, trivial⟩

theorem unpaced_steady {pace : Pace} (apart : pace ≠ returned) :
    pacing.Steady unpaced (· = pace) where
  allows other act same allowed := by
    subst same
    cases act with
    | call role callable args => exact ⟨allowed.1, fun step => absurd step allowed.2⟩
    | _ => exact fun _ => apart
  assumes _ _ := trivial
  grants _ _ granted := granted
  numbers _ := trivial
  heard other request answer same allowed _ := by
    subst same
    have past := past_of_ne apart
    cases request with
    | subscribers role event args =>
      cases role with
      | run => exact absurd rfl allowed
      | _ => exact past
    | tail => exact allowed.elim
    | outcome task => exact allowed.elim
    | _ => exact past
  after other act same allowed := by
    subst same
    have past := past_of_ne apart
    cases act with
    | call role callable args =>
      cases role with
      | step => exact absurd rfl allowed.2
      | _ => exact past
    | leave role outcome =>
      cases role with
      | step => exact absurd rfl allowed.2
      | _ => exact past
    | _ => exact past
  works covers := covers.elim

theorem pacing_closed : pacing.Closed := by
  intro pace role callable args allowed
  have apart : pacing.after pace (.call role callable args) ≠ returned := by
    cases role with
    | step => exact nofun
    | _ => exact past_ne pace
  refine (callable.process_obeys (unpaced_scripts allowed.1 _) args).heeds (unpaced_steady apart) rfl
    fun reached process same ended => .stop ⟨same, ended⟩

/-! ## Runs of tests -/

section Leads

variable {pace : Pace}

theorem emitFor_paced (event : String) (args : List Value) :
    (emitFor .run event args).Leads pacing pace fun result reached =>
      Uncancelled result ∧ reached ≠ returned ∧ (event = testStarted → reached = free) := by
  refine .askThen (fun waits => waits.elim) fun subscribers _ => ?_
  have known : pacing.heard pace (.subscribers .run event args) subscribers ≠ returned ∧
      (event = testStarted → pacing.heard pace (.subscribers .run event args) subscribers = free) := by
    simp only [pacing, Pace.heard]
    split
    · exact ⟨nofun, fun _ => rfl⟩
    · rename_i other
      exact ⟨past_ne pace, fun same => absurd same other⟩
  have told : (notifyAll args subscribers).Obeys unpaced :=
    notifyAll_obeys unpaced_listeners args subscribers fun _ _ => trivial
  refine (Program.Leads.ofEnsures told (unpaced_steady known.1) rfl).weaken ?_
  rintro result _ ⟨rfl, plain⟩
  exact ⟨plain, known⟩

theorem fire_paced (name event : String) (args : List Value) :
    (Test.fire name event args).Leads pacing pace fun result reached =>
      Uncancelled result ∧ reached ≠ returned := by
  have adds : (Program.addFor .run name (do
      emitFor .run event args
      return .null)).Leads pacing pace fun result reached =>
        Uncancelled result ∧ reached ≠ returned := by
    refine .addFor (fun waits => waits.elim) (fun covers => covers.elim) fun answer => ?_
    refine ⟨?_, past_ne pace⟩
    cases answer with
    | ok task => exact uncancelled_ok task
    | error fault => exact uncancelled_fault fault
  exact .bind adds (fun _ reached known => .pure ⟨uncancelled_ok _, known.2⟩)
    fun _ _ known => ⟨known.1.error, known.2⟩

theorem callFor_paced (call : RecorderCall) :
    (Recorder.callFor .run call).Leads pacing pace fun result reached =>
      Uncancelled result ∧ reached ≠ returned := by
  have asks : (Program.ask (.recorder .run call)).Leads pacing pace fun result reached =>
      Uncancelled result ∧ reached ≠ returned :=
    .ask (fun waits => waits.elim) fun _ _ => ⟨uncancelled_ok _, past_ne pace⟩
  refine .bind asks (fun answer reached known => .ofExcept ?_) fun _ _ known =>
    ⟨known.1.error, known.2⟩
  cases answer with
  | ok value => exact ⟨uncancelled_ok _, known.2⟩
  | error fault => exact ⟨uncancelled_fault _, known.2⟩

/-- What is known when the outcome of a task has been taken. -/
def Taken {α : Type} (task : Nat) (before : Pace) (result : Except Failure α) (reached : Pace) :
    Prop :=
  Uncancelled result ∧ reached ≠ returned ∧
    (before = asked task → ∀ value, result = .ok value → reached = drained)

theorem taken_of_answer {task : Nat} {outcome : Outcome}
    (fair : some outcome ≠ some (.error .cancelled)) :
    Taken task pace outcome (pacing.heard pace (.outcome task) (some outcome)) := by
  refine ⟨fun same => fair (congrArg some same), ?_, fun same _ _ => ?_⟩
  · simp only [pacing, Pace.heard]
    split
    · exact nofun
    · exact past_ne pace
  · simp [pacing, Pace.heard, same]

theorem heard_none {task : Nat} (apart : pace ≠ returned) :
    pacing.heard pace (.outcome task) none = pace := by
  simp [pacing, Pace.heard, past_of_ne apart]

theorem resultOf_paced {task : Nat} (apart : pace ≠ returned) :
    (Recorder.resultOf task).Leads pacing pace (Taken task pace) := by
  intro stops next further
  rw [Recorder.resultOf_apply]
  refine .ask (fun waits => waits.elim) fun _ answer fair => ?_
  cases answer with
  | none =>
    rw [heard_none apart]
    exact further _ _ ⟨uncancelled_fault _, apart, fun _ => nofun⟩
  | some outcome => exact further _ _ (taken_of_answer fair)

theorem settled_paced {task : Nat} (apart : pace ≠ returned) :
    (Recorder.settled task).Leads pacing pace (Taken task pace) := by
  intro stops next further
  rw [Recorder.settled_apply]
  refine .ask (fun waits => waits.elim) fun _ answer fair => ?_
  cases answer with
  | none =>
    rw [heard_none apart]
    refine .join (fun _ => apart) fun _ => ?_
    rw [← Recorder.resultOf_apply]
    exact resultOf_paced apart further
  | some outcome => exact further _ _ (taken_of_answer fair)

theorem drainNow_paced :
    Recorder.drainNow.Leads pacing pace fun result reached => Uncancelled result ∧
      reached ≠ returned ∧ (pace = returned → result = .ok () → reached = drained) := by
  refine .askThen (fun waits => waits.elim) fun tail _ => ?_
  cases tail with
  | none =>
    refine .pure ⟨uncancelled_ok _, ?_⟩
    cases pace <;> simp [pacing, Pace.heard]
  | some task =>
    have apart : pacing.heard pace .tail (some task) ≠ returned := by
      cases pace <;> simp [pacing, Pace.heard]
    refine .bind (settled_paced apart)
      (fun value reached known => .pure ⟨uncancelled_ok _, known.2.1, ?_⟩)
      fun failure reached known => ⟨known.1.error, known.2.1, fun _ => nofun⟩
    rintro rfl _
    exact known.2.2 rfl value rfl

theorem step_paced (step : ResolvedStep) (begins : pace = free ∨ pace = drained) :
    step.run.Leads pacing pace fun result reached => Uncancelled result ∧ reached = returned :=
  fun _ _ further => .call ⟨nofun, fun _ => begins⟩ fun _ _ plain =>
    .leave (fun waits => waits.elim) fun _ => further _ _ ⟨plain, rfl⟩

theorem runSteps_paced (steps : List ResolvedStep) (begins : pace = free ∨ pace = drained) :
    (Test.runSteps steps).Leads pacing pace fun result _ => Uncancelled result := by
  induction steps generalizing pace with
  | nil => exact .pure (uncancelled_ok _)
  | cons step rest ih =>
    refine .bind (step_paced step begins) (fun _ reached known => ?_) fun _ _ known => known.1.error
    refine .bind drainNow_paced (fun _ reached drained => ?_) fun _ _ known => known.1
    exact ih (.inr (drained.2.2 known.2 rfl))

theorem conclude_paced (test : Test) :
    test.conclude.Leads pacing pace fun result reached =>
      Uncancelled result ∧ reached ≠ returned :=
  .bind (fire_paced _ _ _) (fun _ _ _ => drainNow_paced.weaken fun _ _ known =>
    ⟨known.1, known.2.1⟩) fun _ _ known => known

/-- The end of a test. -/
theorem closing_paced (name event : String) (args : List Value) (test : Test) (outcome : Outcome)
    (plain : Uncancelled outcome) :
    (do Test.fire name event args
        test.conclude
        Program.ofOutcome outcome).Leads pacing pace fun result reached =>
      Uncancelled result ∧ reached ≠ returned := by
  refine .bind (fire_paced _ _ _) (fun _ _ _ => ?_) fun _ _ known => ⟨known.1.error, known.2⟩
  refine .bind (conclude_paced test) (fun _ _ known => ?_) fun _ _ known =>
    ⟨known.1.error, known.2⟩
  exact fun _ _ further => further _ _ ⟨plain, known.2⟩

theorem Test.run_paced (test : Test) :
    test.run.Leads pacing pace fun result reached => Uncancelled result ∧ reached ≠ returned := by
  refine .bind (callFor_paced _) (fun _ _ _ => ?_) fun _ _ known => ⟨known.1.error, known.2⟩
  refine .bind (emitFor_paced _ _) (fun _ reached begun => ?_) fun _ _ known =>
    ⟨known.1.error, known.2.1⟩
  split
  · exact closing_paced _ _ _ test (.ok .null) (uncancelled_ok _)
  · have passing : (do
        Test.runSteps test.steps
        Test.fire "fire test.passed" testPassed [.test test.card]
        test.conclude
        return Value.null : Program Value).Leads pacing reached fun result last =>
          Uncancelled result ∧ ∀ value, result = .ok value → last ≠ returned := by
      refine .bind (runSteps_paced test.steps (.inl (begun.2.2 rfl))) (fun _ _ _ => ?_)
        fun _ _ plain => ⟨plain.error, fun _ => nofun⟩
      exact (closing_paced _ _ _ test (.ok .null) (uncancelled_ok _)).weaken fun _ _ known =>
        ⟨known.1, fun _ _ => known.2⟩
    refine .rescue passing (fun fault _ _ => ?_)
      (fun value _ known => ⟨known.1, known.2 value rfl⟩) fun _ known => absurd rfl known.1
    refine .bind (callFor_paced _) (fun _ _ _ => ?_) fun _ _ known => ⟨known.1.error, known.2⟩
    exact closing_paced _ _ _ test (.error (.fault fault)) (uncancelled_fault _)

theorem runTests_paced (tests : List Test) (apart : pace ≠ returned) :
    (Suite.runTests tests).Leads pacing pace fun _ reached => reached ≠ returned := by
  induction tests generalizing pace with
  | nil => exact .pure apart
  | cons test rest ih =>
    have ran : (Suite.runTest test).Leads pacing pace fun _ reached => reached ≠ returned := by
      have runs : (do
          let _ ← test.run
          return .null : Program Value).Leads pacing pace fun _ reached => reached ≠ returned :=
        .bind test.run_paced (fun _ _ known => .pure known.2) fun _ _ known => known.2
      exact .rescue runs (fun _ _ known => .pure known) (fun _ _ known => known) fun _ known => known
    exact .bind ran (fun _ _ apart => .bind (ih apart) (fun _ _ known => .pure known)
      fun _ _ known => known) fun _ _ known => known

theorem Suite.run_paced (suite : Suite) :
    suite.run.Leads pacing pace fun _ reached => reached ≠ returned := by
  refine .bind (emitFor_paced _ _) (fun _ _ known => ?_) fun _ _ known => known.2.1
  refine .bind (runTests_paced suite.tests known.2.1) (fun _ _ _ => ?_) fun _ _ known => known
  exact .bind (emitFor_paced _ _) (fun _ _ known => .pure known.2.1) fun _ _ known => known.2.1

end Leads

/-- What runs tests. -/
inductive Running : Process → Prop
  | test (test : Test) : Running test.run.toProcess
  | suite (suite : Suite) : Running suite.run.toProcess

/-- A process that has ended, and not behind a step body. -/
abbrev Pace.Over (pace : Pace) (process : Process) : Prop :=
  pace ≠ returned ∧ process.act? = none

theorem Running.paced {process : Process} (running : Running process) :
    process.Heeds pacing Pace.Over free := by
  cases running with
  | test test => exact test.run_paced fun _ _ known => .stop ⟨known.2, rfl⟩
  | suite suite => exact suite.run_paced fun _ _ known => .stop ⟨known, rfl⟩

theorem Running.mute {process : Process} (running : Running process) : process.Obeys mute := by
  cases running with
  | test test => exact (test.run_obeys mute_runs).toProcess
  | suite suite => exact (suite.run_obeys mute_runs).toProcess

/-! ## What has ended -/

/-- A step body is called. -/
def Act.Enters : Act → Prop
  | .call .step _ _ => True
  | _ => False

/-- A step body comes back. -/
def Act.Returns : Act → Prop
  | .leave .step _ => True
  | _ => False

/-- A step body comes back, or a test begins. -/
def Act.Renews : Act → Prop
  | .leave .step _ => True
  | .ask (.subscribers .run event _) => event = testStarted
  | _ => False

instance : DecidablePred Act.Enters := fun act => by unfold Act.Enters; split <;> infer_instance

instance : DecidablePred Act.Returns := fun act => by unfold Act.Returns; split <;> infer_instance

instance : DecidablePred Act.Renews := fun act => by unfold Act.Renews; split <;> infer_instance

/-- The next thing that a task does is of some kind. -/
def World.Does (kind : Act → Prop) (host : Nat) (world : World) : Prop :=
  ∃ found ∈ world.act?, found.1 = .task host ∧ kind found.2

instance (kind : Act → Prop) [DecidablePred kind] (host : Nat) (world : World) :
    Decidable (world.Does kind host) :=
  inferInstanceAs (Decidable (∃ found ∈ world.act?, found.1 = .task host ∧ kind found.2))

theorem World.does_of_act? {kind : Act → Prop} {host : Nat} {world : World} {act : Act}
    (acts : world.act? = some (.task host, act)) : world.Does kind host ↔ kind act := by
  simp [World.Does, acts]

theorem World.Does.exists_act {kind : Act → Prop} {host : Nat} {world : World}
    (does : world.Does kind host) : ∃ act, world.act? = some (.task host, act) ∧ kind act := by
  obtain ⟨⟨_, act⟩, acts, rfl, known⟩ := does
  exact ⟨act, acts, known⟩

/-- The last step body that a task has called in its present test came back in a world. -/
def World.History.Returned (host : Nat) (passed early : History) (returning : World) : Prop :=
  ∃ late, passed = early ++ returning :: late ∧ returning.Does Act.Returns host ∧
    ∀ past ∈ late, ¬past.Does Act.Renews host

/-- What is known at a pace. -/
def Pace.Means (host : Nat) (passed : History) (world : World) : Pace → Prop
  | free => ∀ early returning, ¬passed.Returned host early returning
  | inside | drained => ∀ early returning, passed.Returned host early returning →
      Settled early returning world
  | returned => world.busy = some host ∧ ∃ early returning, passed = early ++ [returning] ∧
      returning.recorder = world.recorder ∧ returning.Does Act.Renews host
  | asked task => ∀ early returning, passed.Returned host early returning →
      Covers passed early returning task
  | lost => True

section Means

variable {host : Nat} {passed early : History} {world next returning : World}

theorem Act.Returns.renews {act : Act} (returns : act.Returns) : act.Renews := by
  unfold Act.Returns at returns
  split at returns
  · trivial
  · exact returns.elim

theorem World.Does.renews (returns : world.Does Act.Returns host) : world.Does Act.Renews host := by
  obtain ⟨found, acts, mine, returns⟩ := returns
  exact ⟨found, acts, mine, returns.renews⟩

theorem World.History.Returned.of_append
    (behind : History.Returned host (passed ++ [world]) early returning) :
    (returning = world ∧ world.Does Act.Returns host) ∨
      ¬world.Does Act.Renews host ∧ passed.Returned host early returning := by
  obtain ⟨late, split, returns, quiet⟩ := behind
  rcases List.eq_nil_or_concat late with rfl | ⟨late, last, rfl⟩
  · obtain ⟨rfl, same⟩ := List.append_inj' split rfl
    cases same
    exact .inl ⟨rfl, returns⟩
  · rw [List.concat_eq_append] at split quiet
    have split : passed ++ [world] = (early ++ returning :: late) ++ [last] := by simpa using split
    obtain ⟨rfl, same⟩ := List.append_inj' split rfl
    cases same
    exact .inr ⟨quiet world (by simp), late, rfl, returns, fun past member =>
      quiet past (by simp [member])⟩

theorem World.History.Returned.older
    (behind : History.Returned host (passed ++ [world]) early returning)
    (quiet : ¬world.Does Act.Renews host) : passed.Returned host early returning :=
  (behind.of_append.resolve_left fun last => quiet last.2.renews).2

theorem links_of_returned (behind : passed.Returned host early returning) :
    ∀ link ∈ early.links, link ∈ passed.links := by
  obtain ⟨late, rfl, _⟩ := behind
  exact fun link member => History.mem_links_left _ member

variable {pace : Pace}

/-- What neither begins a test nor comes back from a step body leaves a pace as it is. -/
theorem Pace.Means.past (means : pace.Means host passed world) (quiet : ¬world.Does Act.Renews host)
    (stays : ∀ number outcome, world.outcome? number = some outcome →
      next.outcome? number = some outcome) : pace.past.Means host (passed ++ [world]) next := by
  cases pace with
  | free => exact fun early returning behind => means early returning (behind.older quiet)
  | inside | drained =>
    exact fun early returning behind => (means early returning (behind.older quiet)).mono stays
  | asked task =>
    exact fun early returning behind => (means early returning (behind.older quiet)).append _
  | returned | lost => trivial

/-- The chain is taken behind a step body. -/
theorem Pace.Means.tail (means : returned.Means host passed world) (serial : Serial passed world)
    (quiet : ¬world.Does Act.Renews host) (stays : ∀ number outcome, world.outcome? number = some outcome →
      next.outcome? number = some outcome) :
    (Pace.heard returned .tail world.recorder.tail).Means host (passed ++ [world]) next := by
  obtain ⟨_, first, last, rfl, recorder, renews⟩ := means
  have known {early : History} {returning : World}
      (behind : History.Returned host (first ++ [last] ++ [world]) early returning) :
      (∀ link ∈ early.links, link ∈ History.links (first ++ [last])) ∧
        returning.recorder = world.recorder := by
    have older := behind.older quiet
    refine ⟨links_of_returned older, ?_⟩
    rcases older.of_append with ⟨rfl, _⟩ | ⟨still, _⟩
    · exact recorder
    · exact absurd renews still
  have covered := serial.tail.covered
  cases chain : world.recorder.tail with
  | none =>
    intro early returning behind link member mine
    obtain ⟨older, same⟩ := known behind
    have ended := (covered link (older link member) (mine.trans (congrArg _ same))
      (serial.inside link (older link member))).2 chain
    obtain ⟨outcome, ended⟩ := Option.isSome_iff_exists.1 ended
    simp [stays _ _ ended]
  | some task =>
    intro early returning behind
    obtain ⟨older, same⟩ := known behind
    obtain ⟨_, anchor, member, number, session⟩ := serial.tail.anchored task chain
    refine Covers.append ⟨anchor, member, number, session.trans (congrArg _ same).symm, ?_⟩ world
    intro link member mine
    exact (covered link (older link member) (mine.trans (congrArg _ same))
      (serial.inside link (older link member))).1 task chain

/-- What a task does takes what is known to what its next pace tells. -/
theorem Pace.Means.goes {act : Act} (means : pace.Means host passed world)
    (serial : Serial passed world) (acts : world.act? = some (.task host, act))
    (allowed : pacing.allows pace act) (moved : world.step? = some next) :
    (pacing.next pace world act).Means host (passed ++ [world]) next := by
  have stays (number : Nat) (outcome : Outcome) (ended : world.outcome? number = some outcome) :
      next.outcome? number = some outcome :=
    (step?_stepped serial.wired moved).settled serial.wired ended
  have still (quiet : ¬act.Renews) : ¬world.Does Act.Renews host := mt (does_of_act? acts).1 quiet
  have past (quiet : ¬act.Renews) : pace.past.Means host (passed ++ [world]) next :=
    means.past (still quiet) stays
  have kept (quiet : ¬act.Renews) (apart : pace ≠ returned) :
      pace.Means host (passed ++ [world]) next := past_of_ne apart ▸ past quiet
  cases act with
  | ask request =>
    cases request with
    | subscribers role event args =>
      cases role with
      | run =>
        by_cases begins : event = testStarted
        · have same : pacing.next pace world (.ask (.subscribers .run event args)) = free := by
            simp [Protocol.next, pacing, Pace.heard, begins]
          rw [same]
          intro early returning behind
          rcases behind.of_append with ⟨_, returns⟩ | ⟨quiet, _⟩
          · exact (does_of_act? acts).1 returns
          · exact quiet ((does_of_act? acts).2 begins)
        · simpa [Protocol.next, pacing, Pace.heard, begins] using past begins
      | _ => exact past id
    | tail =>
      by_cases behind : pace = returned
      · subst behind
        exact means.tail serial (still id) stays
      · have same : pacing.next pace world (.ask .tail) = pace := by
          cases pace with
          | returned => exact absurd rfl behind
          | _ => rfl
        rw [same]
        exact kept id behind
    | outcome task =>
      by_cases ended : pace = asked task ∧ (world.outcome? task).isSome
      · obtain ⟨rfl, ended⟩ := ended
        have same : pacing.next (asked task) world (.ask (.outcome task)) = drained := by
          simp [Protocol.next, pacing, Pace.heard, World.respond, ended]
        rw [same]
        obtain ⟨outcome, ended⟩ := Option.isSome_iff_exists.1 ended
        intro early returning behind
        have older := behind.older (still id)
        exact ((means early returning older).settled serial (links_of_returned older) ended).mono
          stays
      · have same : pacing.next pace world (.ask (.outcome task)) = pace.past := by
          simp [Protocol.next, pacing, Pace.heard, World.respond, ended]
        rw [same]
        exact past id
    | _ => exact past id
  | call role callable args =>
    cases role with
    | step =>
      intro early returning behind
      have older := behind.older (still id)
      rcases allowed.2 rfl with rfl | rfl
      · exact absurd older (means early returning)
      · exact (means early returning older).mono stays
    | _ => exact past id
  | leave role outcome =>
    cases role with
    | step =>
      obtain ⟨process, running, leaves⟩ := running_of_act? acts
      cases process with
      | leave role outcome rest =>
        cases leaves
        rw [step?_of_running running] at moved
        cases moved
        exact ⟨rfl, passed, world, rfl, rfl, (does_of_act? acts).2 trivial⟩
      | _ => cases leaves
    | _ => exact past id
  | add role name body => exact past id
  | _ => exact kept id (allowed trivial)

end Means

/-! ## Runs -/

/-- A task keeps pace, and what its pace tells is so. -/
structure Paced (host : Nat) (passed : History) (world : World) (pace : Pace) : Prop where
  inside : host < world.tasks.length
  heeds : ∀ process, world.process? (.task host) = some process →
    process.Heeds pacing Pace.Over pace
  means : pace.Means host passed world

section Paced

variable {host : Nat} {passed : History} {world next : World} {pace : Pace}

theorem Paced.allowed (paced : Paced host passed world pace) {act : Act}
    (acts : world.act? = some (.task host, act)) : pacing.allows pace act := by
  obtain ⟨process, running, does⟩ := running_of_act? acts
  refine (paced.heeds process (process?_of_running running)).allowed (fun behind => ?_) does
  rw [behind.2] at does
  cases does

/-- Behind a step body the task goes straight on. -/
theorem Paced.apart (paced : Paced host passed world pace)
    (others : ∀ act, world.act? ≠ some (.task host, act)) : pace ≠ returned := by
  rintro rfl
  obtain ⟨process, left⟩ := process?_isSome paced.inside
  obtain ⟨act, acts⟩ := (paced.heeds process left).exists_act fun behind => behind.1 rfl
  exact others act (act?_of_running (Setting.running_of_busy paced.means.1 left) acts)

theorem Paced.begins (paced : Paced host passed world pace) (enters : world.Does Act.Enters host) :
    pace = free ∨ pace = drained := by
  obtain ⟨act, acts, enters⟩ := enters.exists_act
  have allowed := paced.allowed acts
  unfold Act.Enters at enters
  split at enters
  · exact allowed.2 rfl
  · exact enters.elim

theorem Paced.step (paced : Paced host passed world pace) (serial : Serial passed world)
    (moved : world.step? = some next) :
    Paced host (passed ++ [world]) next (pacing.turn (.task host) world pace) where
  inside := Nat.lt_of_lt_of_le paced.inside (step?_stepped serial.wired moved).length
  heeds after left := by
    refine ((step?_stepped serial.wired moved).evolves left).heeds (serial.step moved).uncancelled
      pacing_closed (fun _ _ => trivial) (fun _ _ => trivial)
      (fun request _ => serial.uncancelled.fair request) (fun _ _ caller => by cases caller)
      (fun same => Nat.ne_of_lt paced.inside (Owner.task.inj same)) paced.heeds
      fun _ _ behind => behind.2
  means := by
    by_cases mine : ∃ act, world.act? = some (.task host, act)
    · obtain ⟨act, acts⟩ := mine
      rw [turn_of_act? acts]
      exact paced.means.goes serial acts (paced.allowed acts) moved
    · have others (act : Act) : world.act? ≠ some (.task host, act) :=
        fun acts => mine ⟨act, acts⟩
      have quiet : ¬world.Does Act.Renews host := fun does =>
        others _ does.exists_act.choose_spec.1
      have same : pacing.turn (.task host) world pace = pace := by
        unfold Protocol.turn
        split
        · rename_i actor act acts
          rw [if_neg]
          rintro rfl
          exact others _ acts
        · rfl
      have past := paced.means.past quiet fun number outcome ended =>
        (step?_stepped serial.wired moved).settled serial.wired ended
      rwa [same, ← past_of_ne (paced.apart others)]

theorem Paced.between (paced : Paced host passed world pace) (serial : Serial passed world)
    (between : world.Between quietly next) : Paced host passed next pace := by
  obtain ⟨process, left⟩ := process?_isSome paced.inside
  obtain ⟨after, left', passes⟩ := keeping.passes_of_between serial left between
  have serial' := serial.between between
  constructor
  case inside => exact process?_lt serial'.wired left'
  case heeds =>
    intro other known
    cases Option.some.inj (left'.symm.trans known)
    exact (paced.heeds process left).passes passes serial'.uncancelled (fun _ _ => trivial)
      fun behind => behind.2
  case means =>
    have stays (number : Nat) (outcome : Outcome) (ended : world.outcome? number = some outcome) :
        next.outcome? number = some outcome := by
      have lasts : keeping.Lasts host (fun _ => True) fun _ world =>
        world.outcome? number = some outcome := .outcome number outcome
      exact lasts.between serial ended between serial'
    have means := paced.means
    cases pace with
    | free => exact means
    | inside | drained => exact fun early returning behind => (means early returning behind).mono stays
    | asked task => exact means
    | lost => trivial
    | returned =>
      obtain ⟨busy, early, returning, split, same, renews⟩ := means
      have running := Setting.running_of_busy busy left
      refine ⟨?_, early, returning, split, same.trans between.recorder.symm, renews⟩
      cases between with
      | turn => exact busy
      | gate gate idle => cases running.symm.trans idle
      | outside comes =>
        have current := (comes.apart serial.wired).1 (by simp [running])
        simp [World.busy, current, running]

theorem Paced.lasts : keeping.Lasts host (fun _ => True) fun passed world =>
    ∃ pace, Paced host passed world pace where
  step serial paced _ moved _ _ := paced.imp' _ fun _ paced => paced.step serial moved
  between serial paced between _ := paced.imp fun _ paced => paced.between serial between

end Paced

/-- Only tasks that there are have done something. -/
theorem World.Run.owner_lt {clock : Calendar.Moment} {passed : History} {world : World}
    (run : Run quietly (World.initial clock) passed world) {past : World} (member : past ∈ passed)
    {number : Nat} {act : Act} (acts : past.act? = some (.task number, act)) :
    number < world.tasks.length := by
  induction run with
  | refl => cases member
  | @step passed world next run moved ih =>
    have wired := (Serial.of_run run).wired
    refine Nat.lt_of_lt_of_le ?_ (step?_stepped wired moved).length
    rcases List.mem_append.1 member with member | last
    · exact ih member
    · obtain rfl := List.mem_singleton.1 last
      obtain ⟨process, running, _⟩ := running_of_act? acts
      exact process?_lt wired (process?_of_running running)
  | between run between ih => exact Nat.lt_of_lt_of_le (ih member) between.length

/-- When a test calls a step body, every task of the session has ended that had been added before
the last body came back: by whomever, and in whatever way the body went about. -/
theorem settled_before_step {clock : Calendar.Moment} {before passed early : History}
    {start world returning : World} {process : Process}
    (running : Running process) (earlier : Run quietly (World.initial clock) before start)
    (run : Run quietly (start.spawn process).1 passed world)
    (enters : world.Does Act.Enters start.tasks.length)
    (behind : (before ++ passed).Returned start.tasks.length early returning) :
    Settled early returning world := by
  have serial : Serial before (start.spawn process).1 :=
    .of_run (earlier.between (.outside (.spawns running.mute)))
  have begins : Paced start.tasks.length before (start.spawn process).1 free := by
    constructor
    case inside => simp [World.spawn]
    case heeds =>
      intro other left
      rw [process?_spawn (Serial.of_run earlier).wired, if_pos rfl] at left
      cases left
      exact running.paced
    case means =>
      rintro early returning ⟨late, rfl, returns, _⟩
      obtain ⟨act, acts, _⟩ := returns.exists_act
      exact Nat.lt_irrefl _ (earlier.owner_lt (by simp) acts)
  have course : keeping.Course before (start.spawn process).1 (before ++ passed) world :=
    .of_run before run fun _ _ => trivial
  obtain ⟨pace, paced⟩ := course.lasts Paced.lasts serial ⟨free, begins⟩
  rcases paced.begins enters with rfl | rfl
  · exact absurd behind (paced.means early returning)
  · exact paced.means early returning behind

/-- A test whose first step adds a task that adds another, which gives way. -/
def nestingTest : Test :=
  let adds (name added : String) (body : Callable) : Callable :=
    .script name ⟨[], 0, true, []⟩ false false 0 [.add added (some body)]
  let inner : Callable := .script "inner" ⟨[], 0, true, []⟩ true false 0 [.yield 5]
  let step (text : String) (body : Callable) : ResolvedStep :=
    ⟨"given", text, ⟨0, ⟨"given", .placeholders ⟨text, .strict, []⟩, body, ""⟩, []⟩⟩
  let first := adds "first" "outer" (adds "outer" "inner" inner)
  let second : Callable := .script "second" ⟨[], 0, true, []⟩ false false 0 []
  ⟨"nesting", [step "first" first, step "second" second], [], false⟩

theorem settled_before_step_nesting : ∃ passed early returning world,
    Run quietly ({ World.initial ⟨0, none⟩ with looping := true }.spawn
      nestingTest.run.toProcess).1 passed world ∧
    world.Does Act.Enters 0 ∧ passed.Returned 0 early returning ∧
    Settled early returning world ∧ History.added early 1 = [(1, "outer")] := by
  let start : World := { World.initial ⟨0, none⟩ with looping := true }
  have earlier : Run quietly (World.initial ⟨0, none⟩) [] start :=
    Run.refl.between (.outside (.alters rfl))
  let played := World.play 29 (start.spawn nestingTest.run.toProcess).1
  have enters : played.2.Does Act.Enters 0 := by decide +kernel
  have returned : played.1.Returned 0 (played.1.take 5) (played.1.get ⟨5, by decide +kernel⟩) :=
    ⟨played.1.drop 6, by simp, by decide +kernel, by decide +kernel⟩
  exact ⟨_, _, _, _, .play _ _, enters, returned,
    settled_before_step (.test nestingTest) earlier (.play _ _) enters returned, by decide +kernel⟩

/-- What such a task adds has not ended: a step begins beside what the last one has set off. -/
theorem unsettled_before_step : ∃ passed world,
    Run quietly ({ World.initial ⟨0, none⟩ with looping := true }.spawn
      nestingTest.run.toProcess).1 passed world ∧
    world.Does Act.Enters 0 ∧ History.added passed 1 = [(1, "outer"), (2, "inner")] ∧
    (world.outcome? 1).isSome ∧ world.outcome? 2 = none := by
  let start : World := { World.initial ⟨0, none⟩ with looping := true }
  let played := World.play 29 (start.spawn nestingTest.run.toProcess).1
  have pending : (played.2.outcome? 2).isNone := by decide +kernel
  exact ⟨played.1, played.2, .play _ _, by decide +kernel, by decide +kernel, by decide +kernel,
    Option.isNone_iff_eq_none.1 pending⟩

end FeatureRunner
