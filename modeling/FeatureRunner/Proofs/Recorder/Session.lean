import FeatureRunner.Proofs.Recorder.Deadlock
import FeatureRunner.Proofs.Recorder.Segment

/-!
Sessions of the recorder. A start begins a session with an empty trace and an empty chain. The tasks
of earlier sessions go on beside it: what they have yet to write is dropped, no task of the new
session is behind them, and their failures stay among themselves.

Main statement: `sessions_apart`.
-/

namespace FeatureRunner
open FeatureRunner.World

/-- The next step begins a session. -/
def World.Starts (world : World) : Prop :=
  match world.act? with
  | some (_, .ask (.recorder _ .start)) => True
  | some (_, .ask (.recorder _ .startUnlessRunning)) => world.recorder.running = false
  | _ => False

theorem World.starts_iff {world : World} : world.Starts ↔ world.act?.any (fun found =>
    match found.2 with
    | .ask (.recorder _ .start) => true
    | .ask (.recorder _ .startUnlessRunning) => !world.recorder.running
    | _ => false) = true := by
  unfold World.Starts
  split
  · rename_i acts
    simp [acts]
  · rename_i acts
    simp [acts]
  · rename_i started resumed
    rw [Option.any_eq_true]
    refine ⟨False.elim, ?_⟩
    rintro ⟨⟨owner, act⟩, acts, chosen⟩
    split at chosen
    · rename_i role same
      exact started owner role (same ▸ acts)
    · rename_i role same
      exact resumed owner role (same ▸ acts)
    · cases chosen

instance : DecidablePred World.Starts :=
  fun _ => decidable_of_iff _ World.starts_iff.symm

/-- The next step stops the recorder. -/
def World.Stops (world : World) : Prop :=
  ∃ owner role, world.act? = some (owner, .ask (.recorder role .stop))

/-- The part of a history since the latest start. What comes before it ends with that start. -/
structure World.History.Session (before since : History) : Prop where
  unstarted : ∀ past ∈ since, ¬past.Starts
  begins : ∀ past ∈ before.getLast?, past.Starts

/-- Every history has a latest session. -/
theorem World.History.exists_session (passed : History) :
    ∃ before since, passed = before ++ since ∧ History.Session before since := by
  obtain ⟨before, since, split, unstarted, begins⟩ := passed.exists_latest World.Starts
  exact ⟨before, since, split, unstarted, begins⟩

/-! ## The recorder without a start -/

/-- A recorder goes on without a start. -/
structure Recorder.Continues (earlier later : Recorder) : Prop where
  session : later.session = earlier.session
  grows : earlier.trace <+: later.trace
  frozen : earlier.running = false → later.running = false ∧ later.trace = earlier.trace

namespace Recorder.Continues

theorem of_same {earlier later : Recorder} (session : later.session = earlier.session)
    (trace : later.trace = earlier.trace)
    (running : earlier.running = false → later.running = false) : earlier.Continues later :=
  ⟨session, trace ▸ List.prefix_rfl, fun off => ⟨running off, trace⟩⟩

theorem refl (recorder : Recorder) : recorder.Continues recorder :=
  .of_same rfl rfl id

theorem trans {earlier later last : Recorder} (continues : earlier.Continues later)
    (further : later.Continues last) : earlier.Continues last where
  session := further.session.trans continues.session
  grows := continues.grows.trans further.grows
  frozen off := by
    obtain ⟨off, same⟩ := continues.frozen off
    obtain ⟨off, same'⟩ := further.frozen off
    exact ⟨off, same'.trans same⟩

end Recorder.Continues

theorem World.of_starts {world : World} (starts : world.Starts) :
    world.recorderAfter = world.recorder.start ∧ world.link? = none := by
  unfold World.Starts at starts
  split at starts
  · rename_i owner role acts
    exact ⟨by simp [recorderAfter, acts, operate], by simp [World.link?, acts]⟩
  · rename_i owner role acts
    exact ⟨by simp [recorderAfter, acts, operate, Recorder.startUnlessRunning, starts],
      by simp [World.link?, acts]⟩
  · exact starts.elim

theorem World.continues_after {world : World} (unstarted : ¬world.Starts) :
    world.recorder.Continues world.recorderAfter := by
  have keeps (same : world.recorderAfter = world.recorder) :
      world.recorder.Continues world.recorderAfter := by
    rw [same]
    exact .refl _
  rcases acts : world.act? with _ | ⟨owner, act⟩
  · exact keeps (by simp [recorderAfter, acts])
  cases act with
  | add role name body =>
    simp only [recorderAfter, acts]
    rcases addTask_cases world name body with ⟨_, result⟩ | ⟨_, result⟩
    · rw [result]
      exact .refl _
    · rw [result]
      exact .of_same rfl rfl id
  | ask request =>
    cases request with
    | record session line =>
      simp only [recorderAfter, acts, Recorder.record]
      split
      · rename_i mine
        refine ⟨rfl, List.prefix_append _ _, fun off => ?_⟩
        simp [off] at mine
      · exact .refl _
    | recorder role call =>
      cases call with
      | start => exact (unstarted (by simp [World.Starts, acts])).elim
      | stop =>
        simp only [recorderAfter, acts]
        exact .of_same rfl rfl fun _ => rfl
      | startUnlessRunning =>
        have running : world.recorder.running = true := by
          simpa [World.Starts, acts] using unstarted
        exact keeps (by simp [recorderAfter, acts, operate, Recorder.startUnlessRunning, running])
      | recover =>
        simp only [recorderAfter, acts, operate]
        rcases recover_cases world with
          ⟨_, ⟨result, _⟩ | ⟨result, _⟩⟩ | ⟨previous, _, _, _, result⟩
        · rw [result]
          exact .refl _
        · rw [result]
          exact .of_same rfl rfl id
        · rw [result]
          exact .of_same rfl rfl id
    | _ => exact keeps (by simp [recorderAfter, acts])
  | _ => exact keeps (by simp [recorderAfter, acts])

/-- A start that is not one leaves the recorder as it is. -/
theorem World.unaltered_of_startUnlessRunning {world : World} {owner : Owner} {role : Role}
    (unstarted : ¬world.Starts)
    (acts : world.act? = some (owner, .ask (.recorder role .startUnlessRunning))) :
    world.recorderAfter = world.recorder ∧ world.link? = none := by
  have running : world.recorder.running = true := by simpa [World.Starts, acts] using unstarted
  exact ⟨by simp [recorderAfter, acts, operate, Recorder.startUnlessRunning, running],
    by simp [World.link?, acts]⟩

theorem World.Stops.after {world : World} (stops : world.Stops) :
    world.recorderAfter = world.recorder.stop := by
  obtain ⟨owner, role, acts⟩ := stops
  simp [recorderAfter, acts, operate]

/-- The recorder as a history has left it. -/
def World.History.left (passed : History) : Recorder :=
  match passed.getLast? with
  | none => Recorder.initial
  | some last => last.recorderAfter

section Since

variable {clock : Calendar.Moment} {passed early late before since : History} {world past : World}
  {link : Link}

theorem left_of_run (run : Run quietly (World.initial clock) passed world) :
    world.recorder = passed.left := by
  induction run with
  | refl => rfl
  | step run moved =>
    rw [(step?_stepped (Serial.of_run run).wired moved).recorder]
    simp [History.left]
  | between run between ih => rw [between.recorder, ih]

theorem continues_of_run (run : Run quietly (World.initial clock) (early ++ late) world)
    (unstarted : ∀ past ∈ late, ¬past.Starts) : early.left.Continues world.recorder := by
  induction late using List.reverseRecOn generalizing world with
  | nil =>
    rw [left_of_run run, List.append_nil]
    exact .refl _
  | append_singleton late last ih =>
    rw [← List.append_assoc] at run
    have earlier := ih run.split.1 fun past member => unstarted past (by simp [member])
    have moved : world.recorder = last.recorderAfter := by
      rw [left_of_run run]
      simp [History.left]
    rw [moved]
    exact earlier.trans (World.continues_after (unstarted last (by simp)))

/-- What the recorder was in the session, it has gone on from. -/
theorem continues_since (run : Run quietly (World.initial clock) (before ++ since) world)
    (session : History.Session before since) (member : past ∈ since) :
    past.recorderAfter.Continues world.recorder := by
  obtain ⟨first, rest, rfl⟩ := List.append_of_mem member
  rw [show before ++ (first ++ past :: rest) = (before ++ first ++ [past]) ++ rest by simp] at run
  have further := continues_of_run run fun later found => session.unstarted later (by simp [found])
  simpa [History.left] using further

/-- The tasks of a session are those that were added since it began. -/
theorem links_since (run : Run quietly (World.initial clock) (before ++ since) world)
    (session : History.Session before since) :
    (∀ link ∈ since.links, link.session = world.recorder.session) ∧
      ∀ link ∈ before.links, link.session < world.recorder.session := by
  constructor
  · intro link member
    obtain ⟨past, found, made⟩ := List.mem_filterMap.1 member
    rw [(Serial.number_of_link made).2, (continues_since run session found).session,
      (World.continues_after (session.unstarted past found)).session]
  · intro link member
    rcases List.eq_nil_or_concat before with rfl | ⟨early, last, rfl⟩
    · cases member
    · rw [List.concat_eq_append] at run session member
      obtain ⟨recorder, silent⟩ := World.of_starts (session.begins last (by simp))
      have serial : Serial early last := by
        rw [List.append_assoc] at run
        exact Serial.of_run run.split.1
      rw [History.links_append, silent, Option.toList_none, List.append_nil] at member
      have upTo := serial.sessions link member
      have continues := continues_of_run run session.unstarted
      have present : world.recorder.session = last.recorder.session + 1 := by
        simpa [History.left, recorder, Recorder.start] using continues.session
      omega

theorem links_of_session (run : Run quietly (World.initial clock) (before ++ since) world)
    (session : History.Session before since) :
    (History.links (before ++ since)).filter (·.session = world.recorder.session) = since.links := by
  obtain ⟨mine, theirs⟩ := links_since run session
  have none : before.links.filter (·.session = world.recorder.session) = [] := by
    refine List.filter_eq_nil_iff.2 fun link member => ?_
    simpa using Nat.ne_of_lt (theirs link member)
  have all : since.links.filter (·.session = world.recorder.session) = since.links := by
    refine List.filter_eq_self.2 fun link member => ?_
    simpa using mine link member
  rw [History.links_join, List.filter_append, none, all, List.nil_append]

/-- A task that is added in a session has written nothing before. -/
theorem said_since (run : Run quietly (World.initial clock) (before ++ since) world)
    (member : link ∈ since.links) :
    History.said (before ++ since) link.number = since.said link.number := by
  obtain ⟨past, found, made⟩ := List.mem_filterMap.1 member
  obtain ⟨first, rest, rfl⟩ := List.append_of_mem found
  rw [← List.append_assoc] at run
  have silent := (Serial.of_run run.split.1).silent link.number
    (Nat.le_of_eq (Serial.number_of_link made).1.symm)
  simp only [History.said, List.filterMap_append] at silent ⊢
  rw [(List.append_eq_nil_iff.1 silent).1, List.nil_append]

theorem written_since (run : Run quietly (World.initial clock) (before ++ since) world)
    (session : History.Session before since) :
    History.written (before ++ since) world.recorder.session =
      since.links.flatMap fun link => since.said link.number := by
  rw [(Serial.of_run run).spoken, links_of_session run session]
  exact List.flatMap_congr fun link member => said_since run member

theorem Serial.of_session (run : Run quietly (World.initial clock) (before ++ since) world)
    (session : History.Session before since) (member : link ∈ History.links (before ++ since))
    (mine : link.session = world.recorder.session) : link ∈ since.links := by
  rw [← links_of_session run session]
  simpa [mine] using member

end Since

/-! ## Where a failure comes from -/

/-- A failure was come to by a task of the same session. -/
theorem Performed.origin {passed : History} {world : World} {link : Link} {failure : Failure}
    (performed : Performed passed world) (member : link ∈ passed.links)
    (failed : world.outcome? link.number = some (.error failure)) :
    ∃ source ∈ passed.links, source.session = link.session ∧ source.number ≤ link.number ∧
      passed.Came world source (.error failure) := by
  have serial := performed.serial
  induction number : link.number using Nat.strongRecOn generalizing link with
  | ind bound ih =>
    subst number
    have left := process?_of_outcome serial.wired failed
    rcases (serial.staged link member _ left).of_done with
      ⟨begun, _⟩ | ⟨previous, behind, ⟨failure', _, same, failed'⟩ | ⟨_, stood⟩⟩
    · exact ⟨link, member, rfl, Nat.le_refl _, performed.came member begun left⟩
    · cases same
      obtain ⟨before, anchor, inside, rfl, mine⟩ :=
        (serial.follows link member).anchored previous behind
      obtain ⟨source, found, mine', upTo, came⟩ := ih _ before inside failed' rfl
      exact ⟨source, found, mine'.trans mine, Nat.le_trans upTo (Nat.le_of_lt before), came⟩
    · cases stood

/-- A task that has not begun waits for the one before it. -/
theorem Serial.previous_of_pends {passed : History} {world : World} {link : Link}
    (serial : Serial passed world) (member : link ∈ passed.links)
    (unbegun : ¬passed.Begun link.number) {process : Process} {task : Nat}
    (left : world.process? (.task link.number) = some process) (pends : world.Pends process task) :
    link.previous = some task := by
  have stage := serial.staged link member process left
  have silent : passed.said link.number = [] := by simpa [History.Begun] using unbegun
  rw [silent] at stage
  obtain ⟨acts | acts, _⟩ := pends
  · cases stage <;> cases acts <;> assumption
  · cases stage <;> cases acts

/-! ## Sessions apart -/

/-- What the trace, the chain and the tasks of the latest session have to do with what was before:
nothing. -/
structure Apart (before since : History) (world : World) : Prop where
  silent : before = [] → world.recorder.trace = []
  traced : world.recorder.running = true →
    world.recorder.trace = since.links.flatMap fun link => since.said link.number
  within : world.recorder.trace <+: since.links.flatMap fun link => since.said link.number
  grows : ∀ past ∈ since, past.recorder.trace <+: world.recorder.trace
  frozen : ∀ past ∈ since, past.Stops ∨ past.recorder.running = false →
    world.recorder.trace = past.recorder.trace
  undisturbed : ∀ past ∈ since, ∀ owner role next,
    past.act? = some (owner, .ask (.recorder role .startUnlessRunning)) →
    past.step? = some next → next.recorder = past.recorder ∧ past.link? = none
  chained : ∀ link ∈ since.links, ∀ previous, link.previous = some previous →
    ∃ other ∈ since.links, other.number = previous
  promised : (Recorder.drain world.recorder.tail).toProcess = .done (.ok .null) ∨
    ∃ link ∈ since.links, world.recorder.tail = some link.number ∧
      (Recorder.drain world.recorder.tail).toProcess = Recorder.waiting link.number .done
  waits : ∀ link ∈ since.links, ¬History.Begun (before ++ since) link.number →
    ∀ process, world.process? (.task link.number) = some process →
    ∀ task, world.Pends process task → ∃ other ∈ since.links, other.number = task
  active : ∀ link ∈ since.links, world.outcome? link.number = none →
    ∃ active ∈ since.links, active.number ≤ link.number ∧
      world.outcome? active.number = none ∧
      (History.Begun (before ++ since) active.number ∨ world.Queued active.number)
  fails : ∀ link ∈ since.links, ∀ failure, world.outcome? link.number = some (.error failure) →
    ∃ source ∈ since.links, source.number ≤ link.number ∧
      History.Came (before ++ since) world source (.error failure)

section Sessions

variable {clock : Calendar.Moment} {passed before since : History} {world : World}

theorem apart_of_run (run : Run quietly (World.initial clock) (before ++ since) world)
    (session : History.Session before since) : Apart before since world := by
  have performed := Performed.of_run run
  have serial := performed.serial
  have heard := Heard.of_run run
  obtain ⟨mine, theirs⟩ := links_since run session
  have inside (link : Link) (member : link ∈ since.links) :
      link ∈ History.links (before ++ since) :=
    History.mem_links_right before member
  have among {link : Link} (member : link ∈ History.links (before ++ since))
      (present : link.session = world.recorder.session) : link ∈ since.links :=
    Serial.of_session run session member present
  have opening (none : before = []) : world.recorder.trace = [] := by
    subst none
    exact ((continues_of_run run session.unstarted).frozen rfl).2
  constructor
  case silent => exact opening
  case traced =>
    intro on
    rw [heard.running on, written_since run session]
  case within =>
    rw [← written_since run session]
    cases on : world.recorder.running with
    | true =>
      exact heard.running on ▸ List.prefix_rfl
    | false =>
      rcases Nat.eq_zero_or_pos world.recorder.session with zero | positive
      · rcases List.eq_nil_or_concat before with none | ⟨early, last, rfl⟩
        · rw [opening none]
          exact List.nil_prefix
        · rw [List.concat_eq_append] at run session
          have continues := continues_of_run run session.unstarted
          obtain ⟨recorder, _⟩ := World.of_starts (session.begins last (by simp))
          have later := continues.session
          simp [History.left, recorder, Recorder.start, zero] at later
      · obtain ⟨earlier, _, _, _, _, split, _, _, _, _, trace⟩ := heard.stopped on positive
        rw [trace, split]
        simp [History.written, List.filterMap_append]
  case grows =>
    intro past member
    exact (World.continues_after (session.unstarted past member)).grows.trans
      (continues_since run session member).grows
  case frozen =>
    intro past member off
    have further := continues_since run session member
    rcases off with stops | off
    · rw [stops.after] at further
      exact (further.frozen rfl).2
    · exact (((World.continues_after (session.unstarted past member)).trans further).frozen off).2
  case undisturbed =>
    intro past member owner role next acts moved
    obtain ⟨first, rest, rfl⟩ := List.append_of_mem member
    rw [← List.append_assoc] at run
    have stepped := step?_stepped (Serial.of_run run.split.1).wired moved
    rw [stepped.recorder]
    exact World.unaltered_of_startUnlessRunning (session.unstarted past member) acts
  case chained =>
    intro link member previous behind
    obtain ⟨_, anchor, found, rfl, same⟩ :=
      (serial.follows link (inside link member)).anchored previous behind
    exact ⟨anchor, among found (same.trans (mine link member)), rfl⟩
  case promised =>
    rcases tail : world.recorder.tail with _ | number
    · exact .inl rfl
    · obtain ⟨_, anchor, found, rfl, same⟩ := serial.tail.anchored number tail
      exact .inr ⟨anchor, among found same, rfl, Recorder.settled_apply _ _⟩
  case waits =>
    intro link member unbegun process left task pends
    have behind := serial.previous_of_pends (inside link member) unbegun left pends
    obtain ⟨_, anchor, found, rfl, same⟩ :=
      (serial.follows link (inside link member)).anchored task behind
    exact ⟨anchor, among found (same.trans (mine link member)), rfl⟩
  case active =>
    intro link member unsettled
    obtain ⟨active, found, same, upTo, rest⟩ := serial.progress (inside link member) unsettled
    exact ⟨active, among found (same.trans (mine link member)), upTo, rest⟩
  case fails =>
    intro link member failure failed
    obtain ⟨source, found, same, upTo, came⟩ := performed.origin (inside link member) failed
    exact ⟨source, among found (same.trans (mine link member)), upTo, came⟩

/-- No task of the session waits for an earlier one, where processes wait for what they know. -/
theorem Patient.pends_since (run : Run attentively (World.initial clock) (before ++ since) world)
    (session : History.Session before since) {link : Link} (member : link ∈ since.links)
    {process : Process} (left : world.process? (.task link.number) = some process) {task : Nat}
    (pends : world.Pends process task) : ∃ other ∈ since.links, other.number = task := by
  have patient := Patient.of_run run
  have serial := patient.serial
  have run := run.mono fun _ _ comes => comes.mono fun _ brought => brought.1
  obtain ⟨mine, _⟩ := links_since run session
  have inside := History.mem_links_right before member
  have obeys := patient.links link inside process left
    (fun task => ∃ other ∈ since.links, other.number = task)
    (fun later found behind => by
      have upTo := serial.sessions later found
      have here := mine link member
      refine ⟨later, Serial.of_session run session found ?_, rfl⟩
      rcases behind with past | ⟨same, _⟩ <;> omega)
    (fun previous behind => by
      obtain ⟨_, anchor, found, rfl, same⟩ := (serial.follows link inside).anchored previous behind
      exact ⟨anchor, Serial.of_session run session found (same.trans (mine link member)), rfl⟩)
  obtain ⟨acts | acts, _⟩ := pends
  · exact obeys.allowed acts
  · exact obeys.allowed acts

/-- In every run of the loop, whatever calls and tasks come from outside, the latest session has
nothing to do with the earlier ones, however many of their tasks go on. -/
theorem sessions_apart (run : Run quietly (World.initial clock) passed world) :
    (∃ before since, passed = before ++ since ∧ History.Session before since) ∧
    ∀ before since, passed = before ++ since → History.Session before since →
      Apart before since world ∧
      (Run attentively (World.initial clock) passed world → ∀ link ∈ since.links, ∀ process,
        world.process? (.task link.number) = some process → ∀ task, world.Pends process task →
        ∃ other ∈ since.links, other.number = task) := by
  refine ⟨passed.exists_session, ?_⟩
  rintro before since rfl session
  refine ⟨apart_of_run run session, fun run link member process left task pends => ?_⟩
  exact Patient.pends_since run session member left pends

end Sessions

/-- A task that begins another session before it raises. -/
def across : Program Value := do
  Recorder.call .start
  let _ ← Program.add "second" (pure .null)
  Program.throw .resultNotSet

/-- Adds such a task and one behind it. -/
def addAcross : Program Value := do
  Recorder.call .start
  let _ ← Program.add "first" across
  let _ ← Program.add "behind" (pure .null)
  return .null

/-- A loop in which the tasks are about to be added. -/
def acrossWorld : World :=
  { World.initial ⟨0, none⟩ with
    looping := true
    current := some (.caller, addAcross.toProcess) }

section Across

variable {law : Law}

theorem across_obeys (calls : ∀ call, law.allows (.ask (.recorder .outside call)))
    (adds : ∀ name, law.allows (.add .outside name (pure .null : Program Value).toProcess)) :
    across.Obeys law := by
  refine .bind (.bind (.ask (calls _)) fun _ => .ofExcept _) fun _ => ?_
  exact .bind (.addFor (adds _) fun _ => (Program.Obeys.pure _).toProcess) fun _ => .throw _

theorem addAcross_obeys (calls : ∀ call, law.allows (.ask (.recorder .outside call)))
    (adds : ∀ name, law.allows (.add .outside name (pure .null : Program Value).toProcess))
    (across : law.allows (.add .outside "first" across.toProcess)) : addAcross.Obeys law := by
  refine .bind (.bind (.ask (calls _)) fun _ => .ofExcept _) fun _ => ?_
  refine .bind (.addFor across fun _ => (across_obeys calls adds).toProcess) fun _ => ?_
  exact .bind (.addFor (adds _) fun _ => (Program.Obeys.pure _).toProcess) fun _ => .pure _

theorem across_fresh : across.toProcess.Fresh ∧ (pure .null : Program Value).toProcess.Fresh := by
  let family (body : Process) : Prop :=
    body = across.toProcess ∨ body = (pure .null : Program Value).toProcess
  have obeys (body : Process) (inside : family body) (known : Nat → Prop) :
      body.Obeys (knowing family known) := by
    rcases inside with rfl | rfl
    · have adds (name : String) : (knowing family known).allows
          (.add .outside name (pure .null : Program Value).toProcess) := Or.inr rfl
      exact (across_obeys (fun _ => trivial) adds).toProcess
    · exact (Program.Obeys.pure _).toProcess
  exact ⟨⟨family, .inl rfl, obeys⟩, ⟨family, .inr rfl, obeys⟩⟩

end Across

theorem acrossWorld_run : Run attentively (World.initial ⟨0, none⟩) [] acrossWorld := by
  have looping : Run attentively (World.initial ⟨0, none⟩) []
      { World.initial ⟨0, none⟩ with looping := true } := Run.refl.between (.outside (.alters rfl))
  refine looping.between (.outside (.enters ⟨?_, fun known _ => ?_⟩ rfl))
  · exact (addAcross_obeys (by simp [mute]) (by simp [mute]) (by simp [mute])).toProcess
  · exact (addAcross_obeys (fun _ => trivial) (fun _ => across_fresh.2) across_fresh.1).toProcess

theorem sessions_apart_across : ∃ before since world,
    Run attentively (World.initial ⟨0, none⟩) (before ++ since) world ∧
    History.Session before since ∧ Apart before since world ∧
    (∃ link ∈ since.links, ∃ value, world.outcome? link.number = some (.ok value)) ∧
    (∃ link ∈ before.links, world.outcome? link.number = some (.error (.fault .resultNotSet))) ∧
    world.recorder.trace = ["second"] := by
  let played := World.play 60 acrossWorld
  have run : Run attentively (World.initial ⟨0, none⟩)
      (played.1.take 7 ++ played.1.drop 7) played.2 := by
    rw [List.take_append_drop]
    exact acrossWorld_run.trans (Run.play 60 acrossWorld)
  have session : History.Session (played.1.take 7) (played.1.drop 7) :=
    ⟨by decide +kernel, by decide +kernel⟩
  have quiet := run.mono fun _ _ comes => comes.mono fun _ brought => brought.1
  obtain ⟨apart, _⟩ := (sessions_apart quiet).2 _ _ rfl session
  have second : ∃ link ∈ History.links (played.1.drop 7), link.number = 2 := by
    decide +kernel
  have behind : ∃ link ∈ History.links (played.1.take 7), link.number = 1 := by
    decide +kernel
  obtain ⟨link, member, number⟩ := second
  obtain ⟨link', member', number'⟩ := behind
  refine ⟨_, _, _, run, session, apart, ⟨link, member, .null, ?_⟩, ⟨link', member', ?_⟩,
    by decide +kernel⟩
  · rw [number]
    rfl
  · rw [number']
    rfl

end FeatureRunner
