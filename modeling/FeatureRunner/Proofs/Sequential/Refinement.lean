import FeatureRunner.Proofs.Sequential.Bodies
import FeatureRunner.Proofs.Sequential.Drain

/-!
Whatever gives way and however long, a test that runs in a loop does what the interpreter does. Each
part of the run of a test refines a computation of the interpreter: when the part has come to its end
the computation has a result, and the loop is where it leads to.

Main statement: `runs_as_interpreted`.
-/

namespace FeatureRunner
open FeatureRunner.World

/-- What listeners do: they do not wait, and what use they make of the recorder is their own. -/
def listening : Law where
  allows
    | .call role callable _ => role = .listener ∧ callable.suspends = false
    | act => ¬act.Waits ∧ ∀ role, act.use? = some role → role = .listener
  assumes _ := True
  covers := False

theorem listening_listeners : listening.AdmitsListeners where
  collects _ _ _ _ _ _ _ _ := ⟨id, nofun⟩
  calls _ _ steady := ⟨rfl, steady⟩
  leaves _ := ⟨id, nofun⟩

theorem listening_scripts : listening.AdmitsScripts .listener false where
  toAdmitsListeners := listening_listeners
  asks request scripted := by
    refine ⟨id, ?_⟩
    cases request with
    | recorder role call =>
      rintro _ ⟨⟩
      exact scripted
    | _ => exact nofun
  adds _ _ _ := ⟨id, by rintro _ ⟨⟩; rfl⟩
  works covers := covers.elim
  awaits := nofun
  waits := nofun

theorem listening_brisk : listening.Brisk where
  closed role callable args allowed := by
    obtain ⟨rfl, steady⟩ := allowed
    have scripts := listening_scripts
    rw [← steady] at scripts
    exact callable.process_obeys scripts args
  assumes _ := trivial
  grants _ _ fair := fair
  numbers _ := trivial
  active act allowed := by
    cases act with
    | call => exact id
    | _ => exact allowed.1

theorem not_employs_listening : ¬listening.Employs := by
  rintro ⟨act, allowed, role, use, among⟩
  cases act with
  | call => cases use
  | _ =>
    obtain rfl := allowed.2 role use
    rcases among with same | same <;> cases same

theorem straight_brisk : straight.Brisk where
  toPlain := straight_plain
  active _ := not_waits_of_straight

/-- A program without a result of its own is its process with what follows it. -/
theorem Program.Uniform.apply_unit {program : Program Unit} (uniform : program.Uniform)
    (next : Except Failure Unit → Process) : program next =
      (program >>= fun _ => pure .null : Program Value).toProcess.andThen fun outcome =>
        next (outcome.map fun _ => ()) := by
  refine Eq.trans ?_ (uniform _ _).symm
  refine congrArg program (funext fun result => ?_)
  cases result with
  | ok value => rfl
  | error failure => rfl

namespace Sequential

section Refining

variable {host : Nat} {wanted : Outcome → Assertion} {state : State} {passed : History}
  {world : World}

theorem ask_tail : state.ask .tail = (state.world.recorder.tail, state) := by
  change (_, { state with emitted := state.emitted ++ [] }) = _
  rw [List.append_nil]
  rfl

theorem Draining.chained {tail : Nat} {total : Option State}
    (draining : Draining host tail total passed world) : world.recorder.tail = some tail := by
  cases draining with
  | next pending => exact pending.chained
  | amid pending => exact pending.chained

/-- When the last task of the chain has ended, so have all of the queue. -/
theorem Draining.drained {tail : Nat} {total : Option State} {outcome : Outcome}
    (draining : Draining host tail total passed world) (ended : world.outcome? tail = some outcome) :
    ∃ final, total = some final ∧ final.queue = [] ∧ final.failed = outcome.failure? ∧
      Mirrors host final passed world := by
  have queued {failed : Option Failure} {head : Link} {queue : List Link}
      (remains : Remains host failed (head :: queue) passed world) : False := by
    obtain ⟨last, member, same⟩ := remains.last (by simp)
    cases draining.chained.symm.trans same
    simp [remains.pending last member] at ended
  cases draining with
  | @next state queue pending ahead =>
    cases queue with
    | cons head queue => exact (queued pending.remains).elim
    | nil =>
      obtain ⟨outcome', ended', fails⟩ := pending.remains.ended pending.chained
      cases ended.symm.trans ended'
      have vacant := pending.vacant
      exact ⟨state, ahead.symm, vacant, fails.symm,
        ⟨pending.toAgrees, vacant.symm ▸ pending.remains, by simp [vacant], .inl vacant⟩⟩
  | amid pending => exact (queued pending.remains).elim

theorem Mirrors.draining {tail : Nat} (mirrors : Mirrors host state passed world)
    (chained : world.recorder.tail = some tail) : Draining host tail
      (performAll state.queue { state with queue := [] }) passed world := by
  have agrees : Agrees { state with queue := [] } passed world := ⟨mirrors.matches', mirrors.emitted⟩
  exact .next ⟨agrees, rfl, chained, mirrors.remains, mirrors.silent⟩ rfl

theorem drain_of_total {final : State}
    (total : performAll state.queue { state with queue := [] } = some final) :
    Interpreter.drain state = some (match final.failed with
      | none => .ok ()
      | some failure => .error failure, final) := by
  cases failed : final.failed <;> simp [Interpreter.drain, total, failed]

/-! ## The parts of a test -/

/-- From states of which something is known, a program of the host does what a computation of the
interpreter does, and something is known of the result. -/
def Refines {α : Type} (host : Nat) (before : State → Prop) (program : Program α)
    (reads : Interpreter α) (after : Except Failure α → State → Prop) : Prop :=
  ∀ (wanted : Outcome → Assertion) (state : State), before state →
    (solitary host).Meets host wanted (Mirrors host state) program fun result passed world =>
      ∃ final, reads state = some (result, final) ∧ after result final ∧
        Mirrors host final passed world

namespace Refines

variable {α β : Type} {before : State → Prop} {program : Program α} {reads : Interpreter α}
  {after : Except Failure α → State → Prop}

theorem weaken {before' : State → Prop} {after' : Except Failure α → State → Prop}
    (refines : Refines host before program reads after) (first : ∀ state, before' state → before state)
    (last : ∀ result state, after result state → after' result state) :
    Refines host before' program reads after' := by
  intro wanted state known
  refine (refines wanted state (first state known)).weaken (fun _ here => here) ?_
  rintro result passed world _ ⟨final, same, known, mirrors⟩
  exact ⟨final, same, last result final known, mirrors⟩

theorem pure (value : α) : Refines host before (Pure.pure value) (Pure.pure value) fun result final =>
    result = .ok value ∧ before final :=
  fun _ state known => (Setting.Meets.pure value _).weaken
    (fun _ mirrors => ⟨state, rfl, ⟨rfl, known⟩, mirrors⟩) fun _ here => here

theorem throw (fault : Fault) : Refines host before (Program.throw fault : Program α)
    (Interpreter.throw fault) fun result final => result = .error (.fault fault) ∧ before final :=
  fun _ state known => (Setting.Meets.throw fault _).weaken
    (fun _ mirrors => ⟨state, rfl, ⟨rfl, known⟩, mirrors⟩) fun _ here => here

theorem bind {further : α → Program β} {readsFurther : α → Interpreter β}
    {after' : Except Failure β → State → Prop} (first : Refines host before program reads after)
    (second : ∀ value, Refines host (after (.ok value)) (further value) (readsFurther value) after')
    (passes : ∀ failure state, after (.error failure) state → after' (.error failure) state) :
    Refines host before (program >>= further) (reads >>= readsFurther) after' := by
  intro wanted state known
  refine .bind (first wanted state known) (fun value => ?_) ?_
  · refine .exists_before fun middle => .and_before fun same => .and_before fun known => ?_
    refine (second value wanted middle known).weaken (fun _ here => here) ?_
    rintro result passed world _ ⟨final, same', known', mirrors⟩
    exact ⟨final, by simp only [Interpreter.bind_apply, same, same'], known', mirrors⟩
  · rintro failure passed world _ ⟨final, same, known, mirrors⟩
    exact ⟨final, by simp only [Interpreter.bind_apply, same], passes failure final known, mirrors⟩

theorem rescue {handler : Fault → Program α} {readsHandler : Fault → Interpreter α}
    {after' : Except Failure α → State → Prop} (first : Refines host before program reads after)
    (handles : ∀ fault, Refines host (after (.error (.fault fault))) (handler fault)
      (readsHandler fault) after')
    (passes : ∀ value state, after (.ok value) state → after' (.ok value) state)
    (cancelled : ∀ state, after (.error .cancelled) state → after' (.error .cancelled) state) :
    Refines host before (program.rescue handler) (reads.rescue readsHandler) after' := by
  intro wanted state known
  refine .rescue (first wanted state known) (fun fault => ?_) ?_ ?_
  · refine .exists_before fun middle => .and_before fun same => .and_before fun known => ?_
    refine (handles fault wanted middle known).weaken (fun _ here => here) ?_
    rintro result passed world _ ⟨final, same', known', mirrors⟩
    exact ⟨final, by simp only [Interpreter.rescue, same, same'], known', mirrors⟩
  · rintro value passed world _ ⟨final, same, known, mirrors⟩
    exact ⟨final, by simp only [Interpreter.rescue, same], passes value final known, mirrors⟩
  · rintro passed world _ ⟨final, same, known, mirrors⟩
    exact ⟨final, by simp only [Interpreter.rescue, same], cancelled final known, mirrors⟩

/-- A program that does not wait. -/
theorem run {law : Law} {program : Program Value} (uniform : program.Uniform) (brisk : law.Brisk)
    (obeys : program.toProcess.Obeys law) : Refines host (fun _ => True) program
      (Interpreter.run program) fun result _ => Uncancelled result := by
  intro wanted state _ next passed world here mirrors left further
  rw [uniform.apply] at left
  refine mirrors.executes brisk obeys here left fun course same plain _ mirrors left => ?_
  exact further course ⟨_, same, plain, mirrors⟩ left

/-- Listeners are told. -/
theorem emit (event : String) (args : List Value) : Refines host (·.queue = [])
    (emitFor .run event args) (Interpreter.emit event args) fun result final =>
      Uncancelled result ∧ final.queue = [] := by
  intro wanted state vacant next passed world here mirrors left further
  rw [(emitFor_uniform args .run event).apply_unit] at left
  have obeys : (emitFor .run event args >>= fun _ => Pure.pure .null : Program Value).Obeys listening :=
    .bind (emitFor_obeys listening_listeners ⟨id, nofun⟩) fun _ => .pure _
  refine mirrors.executes listening_brisk obeys.toProcess here left
    fun {_ _ outcome final} course same plain spared mirrors left => ?_
  refine further course ⟨final, ?_, ⟨plain.map _, ?_⟩, mirrors⟩ left
  · have ran : Interpreter.run (emitFor .run event args >>= fun _ => Pure.pure .null) state =
        some (outcome, final) := same
    rw [Interpreter.emit, Interpreter.bind_apply, ran]
    cases outcome <;> rfl
  · exact (spared.resolve_right not_employs_listening).trans vacant

/-- A task is added. -/
theorem fire (name event : String) (args : List Value) : Refines host (fun _ => True)
    (Test.fire name event args) (Interpreter.fire name event args) fun result _ => result = .ok () := by
  intro wanted state _
  let body : Program Value := emitFor .run event args >>= fun _ => Pure.pure .null
  have adds : (solitary host).Meets host wanted (Mirrors host state) (Program.addFor .run name body)
      fun result passed world => (state.add name body.toProcess).1.mapError .fault = result ∧
        (∃ number, result = .ok number) ∧
        Mirrors host (state.add name body.toProcess).2 passed world := by
    refine .addFor (fun _ => Mirrors.kept rfl id) ?_
    intro passed world next process here mirrors _ acts moved result _
    obtain ⟨answer, mirrors'⟩ := mirrors.add process here acts
    refine ⟨by rw [answer], ?_, result ▸ mirrors'⟩
    rcases addTask_cases world name body.toProcess with ⟨still, _⟩ | ⟨_, result⟩
    · rw [here.looping] at still
      cases still
    · exact ⟨_, by rw [result]; rfl⟩
  refine .bind adds (fun number => ?_) (by rintro _ _ _ _ ⟨_, ⟨_, ⟨⟩⟩, _⟩)
  refine (Setting.Meets.pure () _).weaken (fun _ known => ?_) fun _ here => here
  obtain ⟨answer, _, mirrors⟩ := known
  refine ⟨_, ?_, rfl, mirrors⟩
  simp only [Interpreter.fire]
  rw [show (state.add name body.toProcess).1.mapError Failure.fault = .ok number from answer]
  rfl

/-- The chain is abandoned, and a new one begins. -/
theorem recover : Refines host (fun _ => True) (Recorder.callFor .run .recover) Interpreter.recover
    fun result _ => result = .ok () := by
  intro wanted state _
  have asks : (solitary host).Meets host wanted (Mirrors host state)
      (Program.ask (.recorder .run .recover)) fun result passed world =>
        result = .ok (.ok ()) ∧ state.recover.1 = .ok () ∧
          Mirrors host state.recover.2 passed world := by
    refine .ask (fun _ => Mirrors.kept rfl id) ?_
    intro passed world next process here mirrors fair acts moved result _
    obtain ⟨answer, mirrors'⟩ := mirrors.ask process here fair acts
    have well : world.recover.1 = .ok () := recover_of_looping here.looping
    exact ⟨congrArg Except.ok well, Eq.trans answer well, result ▸ mirrors'⟩
  refine .bind asks (fun answer => ?_) (by rintro _ _ _ _ ⟨⟨⟩, _⟩)
  refine .and_before fun same => .and_before fun well => ?_
  cases same
  refine (Setting.Meets.ofExcept (.ok ()) _).weaken (fun _ mirrors => ?_) fun _ here => here
  exact ⟨state.recover.2, by simp [Interpreter.recover, well, Except.mapError], rfl, mirrors⟩

/-- The chain is drained. -/
theorem drain : Refines host (fun _ => True) Recorder.drainNow Interpreter.drain
    fun result final => Uncancelled result ∧ final.queue = [] := by
  intro wanted state _
  have takes : (solitary host).Meets host wanted (Mirrors host state) (Program.ask .tail)
      fun result passed world => ∃ tail, result = .ok tail ∧ world.recorder.tail = tail ∧
        Mirrors host state passed world := by
    refine .ask (fun _ => Mirrors.kept rfl id) ?_
    intro passed world next process here mirrors fair acts moved result _
    obtain ⟨answer, mirrors'⟩ := mirrors.ask process here fair acts
    rw [ask_tail] at mirrors'
    exact ⟨world.recorder.tail, rfl, by rw [result]; rfl, result ▸ mirrors'⟩
  refine .bind takes (fun tail => ?_) (by rintro _ _ _ _ ⟨_, ⟨⟩, _⟩)
  refine .exists_before fun known => .and_before fun same => ?_
  cases same
  cases tail with
  | none =>
    refine (Setting.Meets.pure () _).weaken (fun here known => ?_) fun _ here => here
    obtain ⟨chained, mirrors⟩ := known
    have vacant : state.queue = [] := by
      by_contra queued
      obtain ⟨link, _, tail⟩ := mirrors.remains.last queued
      cases chained.symm.trans tail
    have unfailed : state.failed = none := by
      obtain ⟨previous, strung, behind⟩ := mirrors.remains.strung
      rw [vacant, chained] at strung
      cases strung
      exact behind
    have total : performAll state.queue { state with queue := [] } = some state := by
      rw [vacant]
      exact congrArg (fun queue => some { state with queue := queue }) vacant.symm
    exact ⟨state, by rw [drain_of_total total, unfailed], ⟨uncancelled_ok _, vacant⟩, mirrors⟩
  | some task =>
    have settles : (solitary host).Meets host wanted
        (Draining host task (performAll state.queue { state with queue := [] }))
        (Recorder.settled task) fun outcome passed world =>
          Draining host task (performAll state.queue { state with queue := [] }) passed world ∧
            world.outcome? task = some outcome :=
      .settled Draining.spans fun here draining =>
        (here.serial.tail.anchored task draining.chained).1
    refine .bind (settles.weaken (fun _ known => known.2.draining known.1) fun _ here => here)
      (fun value => ?_) fun here known => ?_
    · refine (Setting.Meets.pure () _).weaken (fun here known => ?_) fun _ here => here
      obtain ⟨final, total, vacant, failed, mirrors⟩ := known.1.drained known.2
      exact ⟨final, by rw [drain_of_total total, failed]; rfl, ⟨uncancelled_ok _, vacant⟩, mirrors⟩
    · obtain ⟨final, total, vacant, failed, mirrors⟩ := known.1.drained known.2
      exact ⟨final, by rw [drain_of_total total, failed]; rfl,
        ⟨(here.serial.uncancelled.plain known.2).error, vacant⟩, mirrors⟩

/-- A recorder that is running is not started anew. -/
theorem begin : Refines host (fun state => state.queue = [] ∧ state.world.recorder.running = true)
    (Recorder.callFor .run .startUnlessRunning) (Pure.pure ()) fun result final =>
      result = .ok () ∧ final.queue = [] := by
  rintro wanted state ⟨vacant, running⟩
  have answered : state.ask (.recorder .run .startUnlessRunning) = (.ok (), state) := by
    have same : state.world.recorder.startUnlessRunning = state.world.recorder :=
      if_pos running
    change (_, { state with
      world := { state.world with recorder := state.world.recorder.startUnlessRunning }
      emitted := state.emitted ++ [] }) = _
    rw [same, List.append_nil]
  have asks : (solitary host).Meets host wanted (Mirrors host state)
      (Program.ask (.recorder .run .startUnlessRunning)) fun result passed world =>
        result = .ok (.ok ()) ∧ Mirrors host state passed world := by
    refine .ask (fun _ => Mirrors.kept rfl id) ?_
    intro passed world next process here mirrors fair acts moved result _
    obtain ⟨answer, mirrors'⟩ := mirrors.ask process here fair acts
    rw [answered] at answer mirrors'
    exact ⟨congrArg Except.ok answer.symm, result ▸ mirrors'⟩
  refine .bind asks (fun answer => ?_) (by rintro _ _ _ _ ⟨⟨⟩, _⟩)
  refine .and_before fun same => ?_
  cases same
  refine (Setting.Meets.ofExcept (.ok ()) _).weaken (fun _ mirrors => ?_) fun _ here => here
  exact ⟨state, rfl, ⟨rfl, vacant⟩, mirrors⟩

theorem conclude (test : Test) : Refines host (fun _ => True) test.conclude
    (Interpreter.conclude test) fun result final => Uncancelled result ∧ final.queue = [] :=
  .bind (fire _ _ _) (fun _ => drain.weaken (fun _ _ => trivial) fun _ _ known => known)
    (by rintro _ _ ⟨⟩)

theorem runSteps (steps : List ResolvedStep)
    (synchronous : ∀ step ∈ steps, step.found.definition.callable.suspends = false) :
    Refines host (fun _ => True) (Test.runSteps steps) (Interpreter.runSteps steps) fun result _ =>
      Uncancelled result := by
  induction steps with
  | nil => exact (pure ()).weaken (fun _ _ => trivial) fun _ _ known => known.1 ▸ uncancelled_ok _
  | cons step rest ih =>
    have body : step.run.Obeys straight :=
      .call (synchronous step (by simp)) fun _ => id
    have ran : Refines host (fun _ => True) step.run (Interpreter.run step.run) fun result _ =>
        Uncancelled result := run (.call _ _ _) straight_brisk body.toProcess
    refine .bind ran (fun _ => ?_) fun _ _ plain => plain.error
    refine .bind (drain.weaken (fun _ _ => trivial) fun _ _ known => known.1) (fun _ => ?_)
      fun _ _ plain => plain.error
    exact (ih fun step member => synchronous step (by simp [member])).weaken (fun _ _ => trivial)
      fun _ _ plain => plain

/-- The end of a test, behind which nothing is left in the queue. -/
theorem close {α : Type} (name event : String) (args : List Value) (test : Test)
    {program : Program α} {reads : Interpreter α} {result : Except Failure α}
    (ends : Refines host (·.queue = []) program reads fun ending final =>
      ending = result ∧ final.queue = []) (plain : Uncancelled result) :
    Refines host (fun _ => True) (do
        Test.fire name event args
        test.conclude
        program) (do
        Interpreter.fire name event args
        Interpreter.conclude test
        reads) fun ending final => Uncancelled ending ∧ final.queue = [] := by
  refine .bind (fire _ _ _) (fun _ => ?_) (by rintro _ _ ⟨⟩)
  refine .bind ((conclude test).weaken (fun _ _ => trivial) fun _ _ known => known) (fun _ => ?_)
    fun _ _ known => ⟨known.1.error, known.2⟩
  exact ends.weaken (fun _ known => known.2) fun _ _ known => ⟨known.1 ▸ plain, known.2⟩

theorem test (test : Test)
    (synchronous : ∀ step ∈ test.steps, step.found.definition.callable.suspends = false) :
    Refines host (fun state => state.queue = [] ∧ state.world.recorder.running = true) test.run
      (Interpreter.runTest test) fun _ final => final.queue = [] := by
  have succeeds (name event : String) : Refines host (fun _ => True) (do
        Test.fire name event [.test test.card]
        test.conclude
        return Value.null) (do
        Interpreter.fire name event [.test test.card]
        Interpreter.conclude test
        return Value.null) fun ending final => Uncancelled ending ∧ final.queue = [] :=
    close name event _ test (pure Value.null) (uncancelled_ok _)
  change Refines host _ _ (Pure.pure () >>= fun _ => Interpreter.runTest test) _
  refine .bind begin (fun _ => ?_) (by rintro _ _ ⟨⟨⟩, _⟩)
  refine .bind ((emit _ _).weaken (fun _ known => known.2) fun _ _ known => known) (fun _ => ?_)
    fun _ _ known => known.2
  split
  · exact (succeeds _ _).weaken (fun _ _ => trivial) fun _ _ known => known.2
  · have passing : Refines host (fun _ => True) (do
          Test.runSteps test.steps
          Test.fire "fire test.passed" testPassed [.test test.card]
          test.conclude
          return Value.null) (do
          Interpreter.runSteps test.steps
          Interpreter.fire "fire test.passed" testPassed [.test test.card]
          Interpreter.conclude test
          return Value.null) fun ending final =>
        Uncancelled ending ∧ ∀ value, ending = .ok value → final.queue = [] := by
      refine .bind (runSteps test.steps synchronous) (fun _ => ?_) fun _ _ plain =>
        ⟨plain.error, nofun⟩
      exact (succeeds _ _).weaken (fun _ _ => trivial) fun _ _ known => ⟨known.1, fun _ _ => known.2⟩
    refine .rescue (passing.weaken (fun _ _ => trivial) fun _ _ known => known) (fun fault => ?_)
      (fun _ _ known => known.2 _ rfl) fun _ known => absurd rfl known.1
    refine .bind (recover.weaken (fun _ _ => trivial) fun _ _ known => known) (fun _ => ?_)
      (by rintro _ _ ⟨⟩)
    exact (close _ _ _ test (throw fault) (uncancelled_fault fault)).weaken (fun _ _ => trivial)
      fun _ _ known => known.2

end Refines

/-! ## A whole test -/

/-- The loop tells what the interpreter does, and no task is left but the host. -/
structure Reaches (host : Nat) (final : State) (passed : History) (world : World) : Prop where
  scene : final.world.scene = world.scene
  emitted : final.emitted = passed.emitted
  ended : ∀ number, host < number → number < world.tasks.length → world.outcome? number ≠ none

theorem Mirrors.reaches (mirrors : Mirrors host state passed world) (vacant : state.queue = []) :
    Reaches host state passed world where
  scene := mirrors.matches'.scene
  emitted := mirrors.emitted
  ended number after inside unsettled := by
    obtain ⟨link, member, _⟩ := mirrors.remains.others number after inside unsettled
    simp [vacant] at member

theorem Reaches.stays {next : World} (reaches : Reaches host state passed world)
    (same : next.Matches world) (silent : world.emission? = none) :
    Reaches host state (passed ++ [world]) next where
  scene := reaches.scene.trans same.scene.symm
  emitted := by simp [History.emitted_append, silent, reaches.emitted]
  ended number after inside := by
    rw [same.outcomes]
    exact reaches.ended number after (same.length ▸ inside)

/-- Nothing happens any more but that the host ends. -/
theorem Reaches.lasts : (solitary host).Lasts host Act.Waits (Reaches host state) where
  step {passed world next} here reaches alone moved _ waits := by
    have stepped := step?_stepped here.serial.wired moved
    rcases current : world.current with _ | ⟨owner, process⟩
    · exact reaches.stays (stepped.matches_of_idle current) (by simp [World.emission?, World.act?, current])
    obtain ⟨number, rfl, upTo⟩ := alone.task current
    obtain ⟨inside, unsettled, _⟩ := here.serial.wired.released number (by simp [World.busy, current])
    obtain rfl | after := Nat.eq_or_lt_of_le upTo
    · cases acts : process.act? with
      | some act =>
        obtain ⟨same, tacit⟩ := stepped.matches_of_idles fun owner found running => by
          cases current.symm.trans running
          exact ⟨act, acts, .inl (waits act (act?_of_running current acts))⟩
        exact reaches.stays same (World.silent_of_tacit tacit).2.1
      | none =>
        obtain ⟨outcome, rfl⟩ : ∃ outcome, process = .done outcome := by
          cases process with
          | done outcome => exact ⟨outcome, rfl⟩
          | _ => cases acts
        obtain ⟨_, flows, _, others⟩ := World.ends_of_done here.serial.wired current moved
        refine ⟨reaches.scene.trans flows.scene.symm, ?_, fun number after inside => ?_⟩
        · simp [History.emitted_append, World.emission?, World.act?, current, acts, reaches.emitted]
        · rw [others number (Nat.ne_of_gt after)]
          exact reaches.ended number after (flows.length ▸ inside)
    · -- Nobody after the host is at work, since all those have ended.
      exact absurd unsettled (reaches.ended number after inside)
  between {passed world next} here reaches between _ := by
    have calm : world.Calm next := between.calm_or.resolve_right id
    refine ⟨reaches.scene.trans calm.scene.symm, reaches.emitted, fun number after inside => ?_⟩
    rw [calm.outcomes]
    exact reaches.ended number after (calm.length ▸ inside)

/-- Where the chain has ended well, the loop is where the interpreter begins. -/
theorem mirrors_of_settled {start : World} (process : Process)
    (unfailed : ∀ number, start.recorder.tail = some number →
      ∃ value, start.outcome? number = some (.ok value)) :
    Mirrors start.tasks.length ⟨(start.spawn process).1, [], none, passed.emitted⟩ passed
      (start.spawn process).1 where
  matches' := ⟨rfl, rfl, fun _ => rfl⟩
  emitted := rfl
  remains := {
    strung := by
      refine ⟨start.recorder.tail, .nil _, ?_⟩
      cases tail : start.recorder.tail with
      | none => exact rfl
      | some number =>
        obtain ⟨value, ended⟩ := unfailed number tail
        exact ⟨.ok value, by rw [outcome?_spawn, ended], rfl⟩
    links := by simp
    later := by simp
    pending := by simp
    others := by
      intro number after inside
      simp only [World.spawn, List.length_append, List.length_singleton] at inside
      omega }
  silent := by simp
  busy := .inl rfl

end Refining

end Sequential

/-- Whatever gives way and how long: when a test has ended that runs in a loop with a recorder which is
running, whose chain has ended well and which nobody else uses, the interpreter has come to the same
result, with the same effects, the same trace and the same emitted events, and so with the same of
everything but the tasks and the loop. -/
theorem runs_as_interpreted {clock : Calendar.Moment} {before passed : History} {start world : World}
    (test : Test) (earlier : Run quietly (World.initial clock) before start)
    (looping : start.looping = true) (running : start.recorder.running = true)
    (unfailed : ∀ number, start.recorder.tail = some number →
      ∃ value, start.outcome? number = some (.ok value))
    (synchronous : ∀ step ∈ test.steps, step.found.definition.callable.suspends = false)
    (run : Run (fun _ _ => False) (start.spawn test.run.toProcess).1 passed world)
    (alone : ∀ past ∈ passed, past.Alone start.tasks.length)
    {outcome : Outcome} (ended : world.outcome? start.tasks.length = some outcome) :
    ∃ final, Sequential.Interpreter.runTest test
        ⟨(start.spawn test.run.toProcess).1, [], none, before.emitted⟩ = some (outcome, final) ∧
      final.world.log = world.log ∧ final.world.recorder.trace = world.recorder.trace ∧
      final.emitted = History.emitted (before ++ passed) ∧ final.world.scene = world.scene := by
  have serial : Serial before start := .of_run earlier
  have here : Looped start.tasks.length before (start.spawn test.run.toProcess).1 :=
    ⟨serial.between (.outside (.spawns (test.run_obeys mute_runs).toProcess)), looping,
      by simp [World.spawn]⟩
  have left : (start.spawn test.run.toProcess).1.process? (.task start.tasks.length) =
      some test.run.toProcess := by
    rw [process?_spawn serial.wired, if_pos rfl]
  let first : Sequential.State := ⟨(start.spawn test.run.toProcess).1, [], none, before.emitted⟩
  let wanted (outcome : Outcome) : Assertion := fun passed world => ∃ final,
    Sequential.Interpreter.runTest test first = some (outcome, final) ∧
      Sequential.Reaches start.tasks.length final passed world
  have meets : (solitary start.tasks.length).Meets start.tasks.length wanted
      (Sequential.Mirrors start.tasks.length first) test.run wanted :=
    (Sequential.Refines.test test synchronous wanted first ⟨rfl, running⟩).weaken
      (fun _ mirrors => mirrors) fun _ ends => by
        obtain ⟨final, same, vacant, mirrors⟩ := ends
        exact ⟨final, same, mirrors.reaches vacant⟩
  have safe := meets.safe
    (fun outcome => .exists fun final => .and (.const _) Sequential.Reaches.lasts)
    (fun _ known => known) here (Sequential.mirrors_of_settled _ unfailed) left
  obtain ⟨final, same, reaches⟩ := safe _ _ (.of_run before run alone) outcome ended
  have alike : final.world.scene = world.scene := reaches.scene
  have log : final.world.scene.log = world.scene.log := by rw [alike]
  have trace : final.world.scene.recorder.trace = world.scene.recorder.trace := by rw [alike]
  exact ⟨final, same, log, trace, reaches.emitted, alike⟩

/-- Begins a session. -/
def startSession : Program Value := do
  Recorder.call .start
  return .null

/-- A loop with a helper whose method gives way, where a session is about to begin. -/
def helpingWorld : World :=
  let greets : Callable :=
    .script "greet" ⟨[], 0, true, []⟩ true false 0 [.yield 3, .log (.const (.text "hello"))]
  { World.initial ⟨0, none⟩ with
    looping := true
    container := { Container.initial with helpers := [(.text "host", .helper "host" 0)] }
    readyHelpers := [[("greet", greets)]]
    current := some (.caller, startSession.toProcess) }

/-- A test that dispatches an action, and then adds a task that gives way and fails before another. -/
def failingTest : Test :=
  let step (text : String) (actions : List Action) : ResolvedStep :=
    let body : Callable := .script text ⟨[], 0, true, []⟩ false false 0 actions
    ⟨"given", text, ⟨0, ⟨"given", .placeholders ⟨text, .strict, []⟩, body, ""⟩, []⟩⟩
  let fails : Callable := .script "fails" ⟨[], 0, true, []⟩ true false 0 [.yield 2, .raise .value none]
  ⟨"failing", [step "first" [.invoke "greet" []],
    step "second" [.add "fails" (some fails), .add "dropped" none], step "third" []], [], false⟩

theorem runs_as_interpreted_failing : ∃ (start : World) (passed : History) (world : World)
    (outcome : Outcome) (final : Sequential.State),
    Run (fun _ _ => False) (start.spawn failingTest.run.toProcess).1 passed world ∧
    world.outcome? 0 = some outcome ∧
    Sequential.Interpreter.runTest failingTest
      ⟨(start.spawn failingTest.run.toProcess).1, [], none, []⟩ = some (outcome, final) ∧
    final.world.recorder.trace = world.recorder.trace ∧ world.recorder.trace =
      ["greet", "step passed", "return result", "fails", "error: ", "fire test.failed",
        "finish test"] := by
  have mutes : startSession.Obeys mute :=
    .bind (.bind (.ask (by simp [mute])) fun _ => .ofExcept _) fun _ => .pure _
  have hosted : Run quietly (World.initial ⟨0, none⟩) [] { helpingWorld with current := none } :=
    Run.refl.between (.outside (.alters rfl))
  let started := World.play 2 helpingWorld
  have earlier : Run quietly (World.initial ⟨0, none⟩) started.1 started.2 :=
    (hosted.between (.outside (.enters mutes.toProcess rfl))).trans (Run.play 2 helpingWorld)
  have tail : started.2.recorder.tail = none := by decide +kernel
  let played := World.play 120 (started.2.spawn failingTest.run.toProcess).1
  have ended : (played.2.outcome? 0).isSome := by decide +kernel
  obtain ⟨outcome, ended⟩ := Option.isSome_iff_exists.1 ended
  obtain ⟨final, same, _, trace, _⟩ := runs_as_interpreted failingTest earlier rfl
    (by decide +kernel) (by simp [tail]) (by decide +kernel) (.play 120 _) (by decide +kernel) ended
  exact ⟨started.2, played.1, played.2, outcome, final, .play _ _, ended, same, trace,
    by decide +kernel⟩

end FeatureRunner
