import FeatureRunner.Proofs.Recorder.Serial

/-!
The trace of a session. While the recorder runs, its trace is the account of the tasks added in the
session: the name of every task that has begun, in the order in which they were added, and after
the name of a task that raised a fault its message. A stop leaves the trace as it is.

Main statement: `recorder_serialises`.
-/

namespace FeatureRunner
open FeatureRunner.World

/-- The number and the name of the task that the next step adds in a session. -/
def World.added? (session : Nat) (world : World) : Option (Nat × String) :=
  match world.act? with
  | some (_, .add _ name _) =>
    if world.looping && world.recorder.session == session then some (world.tasks.length, name)
    else none
  | _ => none

/-- The fault with which a task has ended or is about to. -/
def World.raised? (world : World) (number : Nat) : Option Fault :=
  match world.process? (.task number) with
  | some (.done (.error (.fault fault))) => some fault
  | _ => none

namespace World.History

/-- The tasks added in a session, in order. -/
def added (passed : History) (session : Nat) : List (Nat × String) :=
  passed.filterMap (World.added? session)

/-- A task has begun when it has written its name; then it calls its callable. -/
def Begun (passed : History) (number : Nat) : Prop :=
  passed.said number ≠ []

instance (passed : History) (number : Nat) : Decidable (passed.Begun number) :=
  inferInstanceAs (Decidable (_ ≠ _))

/-- What the trace of a session should be: the names of the tasks that have begun, and the faults
that they raised. -/
def account (passed : History) (world : World) (session : Nat) : List String :=
  (passed.added session).flatMap fun task =>
    if passed.Begun task.1 then
      task.2 :: (world.raised? task.1).toList.map fun fault => "error: " ++ fault.message
    else []

end World.History

/-- The tasks of each session run one after the other, and the trace is the account of those of the
present session, up to its stop. -/
structure Serialised (start : World) (outside : World → World → Prop) (passed : History)
    (world : World) : Prop where
  distinct : ∀ session, ((passed.added session).map Prod.fst).Nodup
  ordered : ∀ session, ∃ ended rest, passed.added session = ended ++ rest ∧
    (∀ task ∈ ended, (world.outcome? task.1).isSome) ∧
    (∀ task ∈ rest, world.outcome? task.1 = none) ∧
    ∀ task ∈ rest.tail, ¬passed.Begun task.1
  traced : world.recorder.running = true →
    world.recorder.trace = passed.account world world.recorder.session
  stopped : world.recorder.running = false → 0 < world.recorder.session →
    ∃ before stopping after owner role, passed = before ++ stopping :: after ∧
      Run outside start before stopping ∧
      stopping.act? = some (owner, .ask (.recorder role .stop)) ∧
      stopping.recorder.running = true ∧
      stopping.recorder.session = world.recorder.session ∧
      world.recorder.trace = before.account stopping world.recorder.session ∧
      world.recorder.trace <+: passed.account world world.recorder.session

namespace Serial

variable {passed : History} {world next : World} {link : Link}

/-! ## The tasks added in a session -/

theorem added_eq (passed : History) (session : Nat) : passed.added session =
    (passed.links.filter (·.session = session)).filterMap fun link =>
      link.work.map fun work => (link.number, work.1) := by
  simp only [History.added, History.links, List.filter_filterMap, List.filterMap_filterMap]
  refine List.filterMap_congr fun world _ => ?_
  unfold World.added? World.link?
  cases acts : world.act? with
  | none => rfl
  | some found =>
    obtain ⟨owner, act⟩ := found
    cases act with
    | add role name body =>
      cases world.looping
      · simp
      · by_cases mine : world.recorder.session = session <;> simp [Option.filter, mine]
    | ask request =>
      cases request with
      | recorder role call =>
        cases call with
        | recover =>
          cases world.recorder.tail with
          | none => rfl
          | some previous =>
            by_cases open' : ((world.outcome? previous).isSome || !world.looping) = true
            · simp [open']
            · by_cases mine : world.recorder.session = session <;> simp [Option.filter, open', mine]
        | _ => rfl
      | _ => rfl
    | _ => rfl

theorem exists_link_of_added {session : Nat} {task : Nat × String}
    (member : task ∈ passed.added session) :
    ∃ link ∈ passed.links, link.number = task.1 ∧ link.session = session := by
  rw [added_eq] at member
  obtain ⟨link, inside, made⟩ := List.mem_filterMap.1 member
  obtain ⟨inside, mine⟩ := List.mem_filter.1 inside
  obtain ⟨work, _, rfl⟩ := Option.map_eq_some_iff.1 made
  exact ⟨link, inside, rfl, by simpa using mine⟩

theorem added_increasing (serial : Serial passed world) (session : Nat) :
    (passed.added session).Pairwise fun earlier later => earlier.1 < later.1 := by
  rw [added_eq, List.pairwise_filterMap]
  refine (serial.increasing.filter _).imp fun before earlier made later made' => ?_
  obtain ⟨_, _, rfl⟩ := Option.map_eq_some_iff.1 made
  obtain ⟨_, _, rfl⟩ := Option.map_eq_some_iff.1 made'
  exact before

/-- A task that has begun or ended has all before it ended. -/
theorem settled_of_active (serial : Serial passed world) {session : Nat}
    {earlier later : Nat × String} (member : earlier ∈ passed.added session)
    (member' : later ∈ passed.added session) (before : earlier.1 < later.1)
    (active : passed.Begun later.1 ∨ (world.outcome? later.1).isSome) :
    (world.outcome? earlier.1).isSome := by
  obtain ⟨link, inside, number, mine⟩ := exists_link_of_added member
  obtain ⟨link', inside', number', mine'⟩ := exists_link_of_added member'
  rw [← number, ← number'] at before
  rw [← number'] at active
  rw [← number]
  have late : link'.Late world := by
    rcases active with begun | ended
    · exact serial.late_of_begun inside' begun
    · exact serial.late_of_settled inside' ended
  exact serial.settled_of_late inside' late inside (mine.trans mine'.symm) before

theorem exists_split {α : Type} {holds : α → Prop} {items : List α}
    (closed : items.Pairwise fun earlier later => holds later → holds earlier) :
    ∃ first rest, items = first ++ rest ∧ (∀ item ∈ first, holds item) ∧
      ∀ item ∈ rest, ¬holds item := by
  induction items with
  | nil => exact ⟨[], [], rfl, by simp, by simp⟩
  | cons item items ih =>
    obtain ⟨closed, closed'⟩ := List.pairwise_cons.1 closed
    by_cases here : holds item
    · obtain ⟨first, rest, rfl, all, none⟩ := ih closed'
      refine ⟨item :: first, rest, rfl, ?_, none⟩
      simpa [here] using all
    · refine ⟨[], item :: items, rfl, by simp, ?_⟩
      simp only [List.mem_cons, forall_eq_or_imp]
      exact ⟨here, fun later member holds => here (closed later member holds)⟩

theorem ordered (serial : Serial passed world) (session : Nat) :
    ∃ ended rest, passed.added session = ended ++ rest ∧
      (∀ task ∈ ended, (world.outcome? task.1).isSome) ∧
      (∀ task ∈ rest, world.outcome? task.1 = none) ∧
      ∀ task ∈ rest.tail, ¬passed.Begun task.1 := by
  have increasing := serial.added_increasing session
  have closed : (passed.added session).Pairwise fun earlier later =>
      (world.outcome? later.1).isSome → (world.outcome? earlier.1).isSome :=
    increasing.imp_of_mem fun member member' before ended =>
      serial.settled_of_active member member' before (.inr ended)
  obtain ⟨ended, rest, split, settled, unsettled⟩ := exists_split closed
  refine ⟨ended, rest, split, settled, fun task member => by simpa using unsettled task member, ?_⟩
  cases rest with
  | nil => simp
  | cons first others =>
    intro task member begun
    have inside : first ∈ passed.added session := by simp [split]
    have inside' : task ∈ passed.added session := by simp_all
    rw [split, List.pairwise_append, List.pairwise_cons] at increasing
    have before := increasing.2.1.1 task member
    exact unsettled first (by simp) (serial.settled_of_active inside inside' before (.inl begun))

/-! ## The account of a session -/

theorem raised?_of_works {rest : Process} {session : Nat}
    (left : world.process? (.task link.number) = some (rest.andThen (Recorder.report session))) :
    world.raised? link.number = none := by
  unfold World.raised?
  rw [left]
  cases rest with
  | done outcome => rcases outcome with (fault | _) | value <;> rfl
  | _ => rfl

/-- What a link has written is nothing, or its name with the fault that it raised. -/
theorem said_cases (serial : Serial passed world) (member : link ∈ passed.links) :
    passed.said link.number = [] ∨ ∃ name body, link.work = some (name, body) ∧
      passed.said link.number =
        name :: (world.raised? link.number).toList.map fun fault => "error: " ++ fault.message := by
  obtain ⟨process, left⟩ := process?_isSome (serial.inside link member)
  have stage := serial.staged link member process left
  generalize passed.said link.number = said at stage ⊢
  cases stage with
  | works work ready plain => exact .inr ⟨_, _, work, by simp [raised?_of_works left]⟩
  | reported work ready => exact .inr ⟨_, _, work, by simp [World.raised?, left]⟩
  | _ => exact .inl rfl

theorem written_eq_account (serial : Serial passed world) (session : Nat) :
    passed.written session = passed.account world session := by
  have each (links : List Link) (inside : ∀ link ∈ links, link ∈ passed.links) :
      (links.flatMap fun link => passed.said link.number) =
        (links.filterMap fun link => link.work.map fun work => (link.number, work.1)).flatMap
          fun task => if passed.Begun task.1 then
            task.2 :: (world.raised? task.1).toList.map fun fault => "error: " ++ fault.message
          else [] := by
    induction links with
    | nil => rfl
    | cons link rest ih =>
      rw [List.flatMap_cons, ih fun other member => inside other (List.mem_cons_of_mem _ member)]
      rcases serial.said_cases (inside link (by simp)) with silent | ⟨name, body, work, written⟩
      · have idle : ¬passed.Begun link.number := fun begun => begun silent
        cases work : link.work with
        | none => simp [silent, work]
        | some found => simp [silent, work, idle]
      · have begun : passed.Begun link.number := by simp [History.Begun, written]
        simp [work, begun, written]
  rw [serial.spoken, History.account, added_eq]
  exact each _ fun link member => (List.mem_filter.1 member).1

/-- Nothing has been written for sessions to come. -/
theorem written_of_lt (serial : Serial passed world) {session : Nat}
    (later : world.recorder.session < session) : passed.written session = [] := by
  rw [serial.spoken, List.flatMap_eq_nil_iff]
  intro link member
  obtain ⟨inside, mine⟩ := List.mem_filter.1 member
  have upTo := serial.sessions link inside
  have mine : link.session = session := by simpa using mine
  omega

end Serial

/-! ## The trace of the recorder -/

/-- The trace has the lines of its session, or those before the stop. -/
structure Heard (start : World) (outside : World → World → Prop) (passed : History)
    (world : World) : Prop where
  running : world.recorder.running = true →
    world.recorder.trace = passed.written world.recorder.session
  stopped : world.recorder.running = false → 0 < world.recorder.session →
    ∃ before stopping after owner role, passed = before ++ stopping :: after ∧
      Run outside start before stopping ∧
      stopping.act? = some (owner, .ask (.recorder role .stop)) ∧
      stopping.recorder.running = true ∧
      stopping.recorder.session = world.recorder.session ∧
      world.recorder.trace = before.written world.recorder.session

namespace Heard

variable {start world next : World} {passed : History} {outside : World → World → Prop}

/-- A step that writes nothing for the session. -/
theorem keep (heard : Heard start outside passed world)
    (running : next.recorder.running = world.recorder.running)
    (session : next.recorder.session = world.recorder.session)
    (trace : next.recorder.trace = world.recorder.trace)
    (silent : world.recorder.running = true →
      world.written? world.recorder.session = none) :
    Heard start outside (passed ++ [world]) next where
  running on := by
    rw [running] at on
    rw [trace, session, heard.running on, History.written_append, silent on]
    exact (List.append_nil _).symm
  stopped off positive := by
    rw [running] at off
    rw [session] at positive ⊢
    rw [trace]
    obtain ⟨before, stopping, after, owner, role, split, rest⟩ := heard.stopped off positive
    exact ⟨before, stopping, after ++ [world], owner, role, by simp [split], rest⟩

/-- A session begins with an empty trace. -/
theorem of_start (serial : Serial passed world) (recorder : next.recorder = world.recorder.start)
    (silent : ∀ session, world.written? session = none) :
    Heard start outside (passed ++ [world]) next where
  running _ := by
    rw [recorder, History.written_append, silent]
    simp [Recorder.start, serial.written_of_lt (Nat.lt_succ_self _)]
  stopped off := by
    rw [recorder] at off
    cases off

theorem step (heard : Heard start outside passed world) (serial : Serial passed world)
    (run : Run outside start passed world) (stepped : world.Stepped next) :
    Heard start outside (passed ++ [world]) next := by
  have recorder := stepped.recorder
  unfold recorderAfter at recorder
  split at recorder
  · rename_i owner session line acts
    have writes (other : Nat) : world.written? other =
        if session = other then some line else none := by simp [World.written?, acts]
    unfold Recorder.record at recorder
    split at recorder
    · rename_i mine
      obtain ⟨on, mine⟩ : world.recorder.running = true ∧ session = world.recorder.session := by
        simpa using mine
      refine ⟨fun _ => ?_, fun off => ?_⟩
      · rw [recorder, History.written_append, writes, if_pos mine, heard.running on]
        rfl
      · rw [recorder] at off
        simp [on] at off
    · rename_i apart
      refine heard.keep (by rw [recorder]) (by rw [recorder]) (by rw [recorder]) fun on => ?_
      rw [writes, if_neg]
      simpa [on] using apart
  · rename_i owner role call acts
    have silent (session : Nat) : world.written? session = none := by simp [World.written?, acts]
    cases call with
    | start => exact of_start serial recorder silent
    | startUnlessRunning =>
      simp only [operate, Recorder.startUnlessRunning] at recorder
      split at recorder
      · exact heard.keep (by rw [recorder]) (by rw [recorder]) (by rw [recorder]) fun _ => silent _
      · exact of_start serial recorder silent
    | stop =>
      change next.recorder = world.recorder.stop at recorder
      refine ⟨fun on => ?_, fun _ positive => ?_⟩
      · rw [recorder] at on
        cases on
      · rw [recorder] at positive ⊢
        cases on : world.recorder.running with
        | true => exact ⟨passed, world, [], owner, role, rfl, run, acts, on, rfl, heard.running on⟩
        | false =>
          obtain ⟨before, stopping, after, owner, role, split, rest⟩ := heard.stopped on positive
          exact ⟨before, stopping, after ++ [world], owner, role, by simp [split], rest⟩
    | recover =>
      have same : world.recover.2.recorder.running = world.recorder.running ∧
          world.recover.2.recorder.session = world.recorder.session ∧
          world.recover.2.recorder.trace = world.recorder.trace := by
        rcases recover_cases world with
          ⟨_, ⟨result, _⟩ | ⟨result, _⟩⟩ | ⟨previous, _, _, _, result⟩ <;> simp [result]
      change next.recorder = world.recover.2.recorder at recorder
      rw [← recorder] at same
      exact heard.keep same.1 same.2.1 same.2.2 fun _ => silent _
  · rename_i owner role name body acts
    have same : next.recorder.running = world.recorder.running ∧
        next.recorder.session = world.recorder.session ∧
        next.recorder.trace = world.recorder.trace := by
      rw [recorder]
      rcases addTask_cases world name body with ⟨_, result⟩ | ⟨_, result⟩ <;> simp [result]
    exact heard.keep same.1 same.2.1 same.2.2 fun _ => by simp [World.written?, acts]
  · rename_i apart _ _
    refine heard.keep (by rw [recorder]) (by rw [recorder]) (by rw [recorder]) fun _ => ?_
    unfold World.written?
    split
    · rename_i acts
      exact absurd acts (apart _ _ _)
    · rfl

theorem between (heard : Heard start outside passed world)
    (recorder : next.recorder = world.recorder) : Heard start outside passed next where
  running on := by
    rw [recorder] at on ⊢
    exact heard.running on
  stopped off positive := by
    rw [recorder] at off positive ⊢
    exact heard.stopped off positive

end Heard

/-- Only mute processes come from outside: no process but a task of the chain writes to the
trace. -/
abbrev quietly : World → World → Prop :=
  Intervention fun process => process.Obeys mute

theorem Heard.of_run {clock : Calendar.Moment} {passed : History} {world : World}
    (run : Run quietly (World.initial clock) passed world) :
    Heard (World.initial clock) quietly passed world := by
  induction run with
  | refl => exact ⟨fun on => (by cases on), fun _ positive => absurd positive (Nat.lt_irrefl _)⟩
  | step run moved ih =>
    have serial := Serial.of_run run
    exact ih.step serial run (step?_stepped serial.wired moved)
  | between run between ih =>
    refine ih.between ?_
    rcases between.calm_or with calm | comes
    · exact calm.toFlows.recorder
    · cases comes with
      | alters apart => rw [apart]
      | _ => rfl

/-- In every run of the loop, whatever calls and tasks come from outside, the tasks of each session
run one after the other in the order in which they were added, and the trace tells it. -/
theorem recorder_serialises {clock : Calendar.Moment} {passed : History} {world : World}
    (run : Run quietly (World.initial clock) passed world) :
    Serialised (World.initial clock) quietly passed world := by
  have serial := Serial.of_run run
  have heard := Heard.of_run run
  constructor
  case distinct =>
    intro session
    rw [List.Nodup, List.pairwise_map]
    exact (serial.added_increasing session).imp fun before => Nat.ne_of_lt before
  case ordered => exact serial.ordered
  case traced =>
    intro on
    rw [heard.running on, serial.written_eq_account]
  case stopped =>
    intro off positive
    obtain ⟨before, stopping, after, owner, role, split, earlier, stops, on, same, trace⟩ :=
      heard.stopped off positive
    refine ⟨before, stopping, after, owner, role, split, earlier, stops, on, same, ?_, ?_⟩
    · rw [trace, (Serial.of_run earlier).written_eq_account]
    · rw [trace, ← serial.written_eq_account, split]
      simp [History.written, List.filterMap_append]

/-- Adds a task that does nothing and one that raises. -/
def addTwo : Program Value := do
  Recorder.call .start
  let _ ← Program.add "a" (pure .null)
  let _ ← Program.add "b" (Program.throw .resultNotSet)
  return .null

theorem addTwo_mute : addTwo.Obeys mute := by
  refine .bind (.bind (.ask (by simp [mute])) fun _ => .ofExcept _) fun _ => ?_
  refine .bind (.addFor (by simp [mute]) fun _ => (Program.Obeys.pure _).toProcess) fun _ => ?_
  refine .bind (.addFor (by simp [mute]) fun _ => (Program.Obeys.throw _).toProcess) fun _ => ?_
  exact .pure _

theorem recorder_serialises_addTwo : ∃ passed world,
    Run quietly (World.initial ⟨0, none⟩) passed world ∧
      Serialised (World.initial ⟨0, none⟩) quietly passed world ∧
      world.recorder.running = true ∧
      world.recorder.trace = ["a", "b", "error: " ++ Fault.resultNotSet.message] := by
  let looping : World := { World.initial ⟨0, none⟩ with looping := true }
  have begins : Run quietly (World.initial ⟨0, none⟩) [] looping :=
    Run.refl.between (.outside (.alters rfl))
  obtain ⟨added, adds⟩ : ∃ passed, Run quietly looping passed (looping.perform addTwo id).2 :=
    Run.perform looping rfl addTwo id (addTwo_mute fun _ plain => .stop (plain.map id))
  obtain ⟨passed, settles⟩ : ∃ passed, Run quietly _ passed
      (looping.perform addTwo id).2.settle := Run.settle _
  have run := (begins.trans adds).trans settles
  exact ⟨_, _, run, recorder_serialises run, by decide +kernel, by decide +kernel⟩

end FeatureRunner
