import FeatureRunner.Proofs.Suite.Aftermath
import FeatureRunner.Proofs.World.Loop
import FeatureRunner.Proofs.World.Notices
import FeatureRunner.Session

/-!
The entry point of a test, which tells a callable of the end of the test. In a loop the callable is
told through the queue, once, with what the run has ended with. Without a loop it is called behind the
loop that the run has for itself, unless the run was cancelled: then it is not called, and the
cancellation is passed on.

Main statement: `done_reported`.
-/

namespace FeatureRunner
open FeatureRunner.World

namespace World

/-- A callable has noted the end of a test. -/
def noted (world : World) (args : List Value) : World :=
  { world with
    log := world.log.note world.log.presentNumber (.dict [(.text "done", .list args)])
    answer := some (.ok .null) }

end World

namespace Session

/-- The callable that notes the end of a test takes whatever it is told, and does not fail. -/
theorem noteDone_process (outcome : Outcome) : noteDone.process .notice (noticeArgs outcome) =
    .ask .logSection fun number =>
      .ask (.note number (.dict [(.text "done", .list (noticeArgs outcome))])) fun _ => .done (.ok .null) := by
  rcases outcome with (fault | _) | value <;> rfl

/-- A call of it notes the end of the test, and nothing else. -/
theorem call_noteDone (session : Session) (still : session.world.step? = none) (outcome : Outcome) :
    session.call (do
      let _ ← Program.call .notice noteDone (noticeArgs outcome)
      return .null) = (.ok .null, { session with world := session.world.noted (noticeArgs outcome) }) := by
  obtain ⟨idle, ready⟩ := of_step?_none still
  let entry : Value := .dict [(.text "done", .list (noticeArgs outcome))]
  let back (outcome : Outcome) : Process :=
    .leave .notice outcome (.done ((outcome.bind fun _ => .ok .null).map id))
  let world : World := { session.world with answer := none }
  let noted : World := { world with log := world.log.note world.log.presentNumber entry }
  have ends : { noted with current := none, answer := some (.ok .null) } =
      session.world.noted (noticeArgs outcome) := by
    rw [World.noted, ← idle]
  have runs : World.runTurn limit (world.proceed .caller (.call .notice noteDone (noticeArgs outcome) back)) =
      session.world.noted (noticeArgs outcome) := calc
    _ = World.runTurn (999994 + 5) (world.proceed .caller
          ((noteDone.process .notice (noticeArgs outcome)).andThen back)) := runTurn_of_step rfl
    _ = World.runTurn (999994 + 5) (world.proceed .caller (.ask .logSection fun number =>
          .ask (.note number entry) fun _ => back (.ok .null))) := by
      rw [noteDone_process]
      rfl
    _ = World.runTurn (999994 + 4) (world.proceed .caller
          (.ask (.note world.log.presentNumber entry) fun _ => back (.ok .null))) := runTurn_of_step rfl
    _ = World.runTurn (999994 + 3) (noted.proceed .caller (back (.ok .null))) := runTurn_of_step rfl
    _ = World.runTurn (999994 + 2) (noted.proceed .caller (.done (.ok .null))) := runTurn_of_step rfl
    _ = World.runTurn (999994 + 1) { noted with current := none, answer := some (.ok .null) } :=
      runTurn_of_step rfl
    _ = session.world.noted (noticeArgs outcome) := by
      rw [ends]
      exact runTurn_of_none _ (by simp [step?, World.noted, idle, ready])
  have program : (do
      let _ ← Program.call .notice noteDone (noticeArgs outcome)
      return .null : Program Value) (fun outcome => .done (outcome.map id)) =
        .call .notice noteDone (noticeArgs outcome) back :=
    congrArg (Process.call .notice noteDone _) (funext fun outcome => by cases outcome <;> rfl)
  have performed : session.world.perform (do
      let _ ← Program.call .notice noteDone (noticeArgs outcome)
      return .null) id = (.ok .null, session.world.noted (noticeArgs outcome)) := by
    unfold World.perform
    dsimp only
    rw [program]
    change (((World.runTurn limit (world.proceed .caller _)).answer).getD _,
      World.runTurn limit (world.proceed .caller _)) = _
    rw [runs]
    rfl
  rw [Session.call, performed]

/-- No loop is running, nothing is left of the present turn, and nobody is to be told of anything. -/
structure Alone (session : Session) : Prop where
  looping : session.world.looping = false
  still : session.world.step? = none
  unwatched : session.world.Unwatched

theorem alone_initial (clock : Calendar.Moment) : (Session.initial clock false).Alone where
  looping := rfl
  still := rfl
  unwatched := ⟨rfl, fun _ => rfl⟩

/-- What the entry point of a test does without a loop. The test runs in a loop of its own, in which
nobody is told of anything. What it has ended with is raised, or is told behind the loop if somebody is
to be told; but a cancellation is raised in any case, and is told to nobody. -/
structure Reports (session : Session) (name : String) (test : Test) (outcome : Outcome)
    (after : World) : Prop where
  ran : ∃ passed ended, Run (fun _ _ => False) (session.world.loopStart test.run) passed ended ∧
    passed.told = [] ∧ (ended.outcome? session.world.tasks.length).getD (.error .cancelled) = outcome
  raised : session.runTest name test false = (outcome, { session with world := after })
  told : Uncancelled outcome → session.runTest name test true =
    (.ok .null, { session with world := after.noted (noticeArgs outcome) })
  cancelled : outcome = .error .cancelled →
    session.runTest name test true = (outcome, { session with world := after })
  alone : ∀ note, (session.runTest name test note).2.Alone

/-- What becomes of the wish to be told of the end of a task in a loop. Whoever is called is called with
a notice that was in the queue or has become due, one after the other, and the notices about the task
become due once, when it ends, with what it has ended with. -/
structure Tells (number : Nat) (callables : List Callable) (start : World) (passed : History)
    (world : World) : Prop where
  told : passed.told ++ world.queued = start.queued ++ passed.dues.map Prod.snd
  announced : Announced number callables passed world
  calls : ∀ past ∈ passed, ∀ callable args, past.tells? = some (callable, args) →
    ∃ next, past.step? = some next ∧
      next.current = some (.caller, .call .notice callable args .done)

section Entry

variable {session : Session} {name : String} {test : Test}

theorem runTest_of_alone (alone : session.Alone) (note : Bool) : session.runTest name test note =
    if !note then ((session.world.runLoop test.run).1,
      { session with world := (session.world.runLoop test.run).2 })
    else match (session.world.runLoop test.run).1 with
      | .error .cancelled => ((session.world.runLoop test.run).1,
          { session with world := (session.world.runLoop test.run).2 })
      | ended => Session.call { session with world := (session.world.runLoop test.run).2 } (do
          let _ ← Program.call .notice noteDone (World.noticeArgs ended)
          return .null) := by
  have ran : session.run name test.run = ((session.world.runLoop test.run).1,
      { session with world := (session.world.runLoop test.run).2 }) := by
    rw [Session.run, alone.looping]
    rfl
  have closed : (session.world.runLoop test.run).2.looping = false := rfl
  rw [Session.runTest, ran]
  simp only [closed]
  rfl

theorem reports_of_alone (alone : session.Alone)
    (ends : (session.world.runLoop test.run).2.step? = none) :
    session.Reports name test (session.world.runLoop test.run).1 (session.world.runLoop test.run).2 := by
  have started : session.world.Tacit (session.world.loopStart test.run) := by
    have looping : session.world.Tacit { session.world with looping := true } :=
      .of_tasks rfl rfl fun _ busy => .inl busy
    exact looping.trans (.spawn _)
  have live : session.world.Live := live_of_idle (of_step?_none alone.still).1
  have run : Run (fun _ _ => False) (session.world.loopStart test.run) _ _ :=
    Run.loop session.world test.run
  obtain ⟨unwatched, untold⟩ :=
    (alone.unwatched.of_tacit started).of_run (started.live live) run
  have closed : (session.world.runLoop test.run).2.Unwatched :=
    unwatched.cancelAll.of_tacit (.of_tasks rfl rfl fun _ busy => .inl busy)
  have raised : session.runTest name test false = ((session.world.runLoop test.run).1,
      { session with world := (session.world.runLoop test.run).2 }) := runTest_of_alone alone false
  have told (plain : Uncancelled (session.world.runLoop test.run).1) :
      session.runTest name test true = (.ok .null, { session with
        world := (session.world.runLoop test.run).2.noted
          (noticeArgs (session.world.runLoop test.run).1) }) := by
    rw [runTest_of_alone alone true]
    have calls := call_noteDone { session with world := (session.world.runLoop test.run).2 } ends
      (session.world.runLoop test.run).1
    split
    · rename_i silent
      cases silent
    · split
      · rename_i cancelled
        exact absurd cancelled plain
      · exact calls
  have cancelled (same : (session.world.runLoop test.run).1 = .error .cancelled) :
      session.runTest name test true = ((session.world.runLoop test.run).1,
        { session with world := (session.world.runLoop test.run).2 }) := by
    rw [runTest_of_alone alone true, same]
    rfl
  have left : Session.Alone { session with world := (session.world.runLoop test.run).2 } :=
    ⟨rfl, ends, closed⟩
  refine ⟨⟨_, _, run, untold, (runLoop_outcome _ _).symm⟩, raised, told, cancelled, fun note => ?_⟩
  cases note with
  | false =>
    rw [raised]
    exact left
  | true =>
    by_cases same : (session.world.runLoop test.run).1 = .error .cancelled
    · rw [cancelled same]
      exact left
    · rw [told same]
      obtain ⟨idle, ready⟩ := of_step?_none ends
      refine ⟨rfl, ?_, closed.of_tacit (.of_tasks rfl rfl fun _ busy => .inl busy)⟩
      simp [World.noted, step?, idle, ready]

/-- A test in a loop is a task of its own, of whose end somebody may want to be told. -/
theorem runTest_of_looping (looping : session.world.looping = true) (note : Bool) :
    (session.runTest name test note).1 = .ok (.future session.world.tasks.length) ∧
      (session.runTest name test note).2.world =
        if note then (session.world.spawn test.run.toProcess).1.watch session.world.tasks.length
          (.notify noteDone)
        else (session.world.spawn test.run.toProcess).1 := by
  have ran : session.run name test.run = (.ok (.future session.world.tasks.length),
      session.spawn name test.run) := by
    have length : (session.spawn name test.run).world.tasks.length - 1 = session.world.tasks.length := by
      simp [Session.spawn, World.spawn]
    rw [Session.run, if_pos looping]
    dsimp only
    rw [length]
  have on : (session.spawn name test.run).world.looping = true := looping
  rw [Session.runTest, ran]
  cases note with
  | false => exact ⟨rfl, rfl⟩
  | true =>
    simp only [on]
    exact ⟨rfl, rfl⟩

theorem awaited_of_spawn (world : World) (process : Process) (note : Bool) :
    let number := world.tasks.length
    let begun := if note then (world.spawn process).1.watch number (.notify noteDone)
      else (world.spawn process).1
    begun.Awaited number (if note then [noteDone] else []) ∧ begun.queued = world.queued ∧
      begun.current = world.current := by
  have spawned : world.Tacit (world.spawn process).1 := .spawn process
  have inside : world.tasks.length < (world.spawn process).1.tasks.length := by simp [World.spawn]
  have pending : (world.spawn process).1.outcome? world.tasks.length = none := by
    rw [outcome?_spawn, outcome?, state?_of_length_le (Nat.le_refl _)]
    rfl
  have nobody : (world.spawn process).1.callables world.tasks.length = [] := by
    rw [spawned.callables]
    simp [World.callables, watchers]
  cases note with
  | false => exact ⟨⟨inside, pending, nobody⟩, spawned.queued, rfl⟩
  | true =>
    refine ⟨⟨by simpa [World.watch] using inside, ?_, ?_⟩, spawned.queued, rfl⟩
    · simpa only [outcome?, if_true, state?_watch] using pending
    · rw [World.callables] at nobody
      simp [World.callables, watchers_watch, inside, nobody, Watcher.callable?]

theorem tells_of_looping (looping : session.world.looping = true) (idle : session.world.current = none)
    {note : Bool} {passed : History} {world : World}
    (run : Run (Visits session.world.tasks.length) (session.runTest name test note).2.world passed world) :
    Tells session.world.tasks.length (if note then [noteDone] else []) session.world passed world := by
  rw [(runTest_of_looping looping note).2] at run
  obtain ⟨awaited, queued, current⟩ := awaited_of_spawn session.world test.run.toProcess note
  have live := live_of_idle (current.trans idle)
  refine ⟨?_, announced_of_run run live awaited, fun _ _ _ _ => call_of_tells⟩
  rw [(told_of_run run live).2, queued]

end Entry

/-- Every call of the entry point of a test, whatever was before it. Without a loop, as long as the
loops of the tests come to an end: it reports, and leaves a session of which the same holds. In a loop
it answers the task of the run at once and tells of its end once, whatever else comes to the loop. -/
theorem done_reported (session : Session) (name : String) (test : Test) :
    (session.Alone → (session.world.runLoop test.run).2.step? = none →
      session.Reports name test (session.world.runLoop test.run).1
        (session.world.runLoop test.run).2) ∧
    (session.world.looping = true → session.world.current = none → ∀ note,
      (session.runTest name test note).1 = .ok (.future session.world.tasks.length) ∧
      ∀ passed world,
        Run (Visits session.world.tasks.length) (session.runTest name test note).2.world passed world →
        Tells session.world.tasks.length (if note then [noteDone] else []) session.world passed world) :=
  ⟨reports_of_alone, fun looping idle note => ⟨(runTest_of_looping looping note).1,
    fun _ _ => tells_of_looping looping idle⟩⟩

/-- A test without steps. -/
def emptyTest : Test :=
  ⟨"empty", [], [], false⟩

theorem done_reported_empty :
    (∃ outcome after, (Session.initial ⟨0, none⟩ false).Reports "r" emptyTest outcome after ∧
      ((Session.initial ⟨0, none⟩ false).runTest "r" emptyTest true).2.world.log.entries.length = 1) ∧
    ∃ passed world,
      Tells 0 [noteDone] (Session.initial ⟨0, none⟩ true).world passed world ∧
      passed.told.length = 1 ∧ world.queued.length = 0 := by
  have reports := (done_reported (Session.initial ⟨0, none⟩ false) "r" emptyTest).1 (alone_initial _)
    (by rw [← Option.isNone_iff_eq_none]; decide +kernel)
  have tells := ((done_reported (Session.initial ⟨0, none⟩ true) "r" emptyTest).2 rfl rfl true).2 _ _
    (Run.play 60 _)
  exact ⟨⟨_, _, reports, by decide +kernel⟩, _, _, tells, by decide +kernel, by decide +kernel⟩

/-- A session without a loop in which a listener of the end of a test adds a task that gives way. -/
def leavingSession : Session :=
  { Session.initial ⟨0, none⟩ false with world := { leavingWorld with looping := false } }

/-- The task that the first call leaves is cancelled with its loop. The second call waits behind it and
is cancelled too: it tells nobody, and raises the cancellation though somebody is to be told. -/
theorem done_unreported : ∃ first second,
    leavingSession.runTest "first" emptyTest true = (.ok .null, first) ∧
    first.runTest "second" emptyTest true = (.error .cancelled, second) ∧
    first.world.log.entries = [.dict [(.text "done", .list [])]] ∧
    second.world.log.entries = [.dict [(.text "done", .list [])]] :=
  ⟨_, _, rfl, rfl, rfl, rfl⟩

end Session

end FeatureRunner
