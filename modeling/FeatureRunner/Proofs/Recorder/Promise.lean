import FeatureRunner.Proofs.Recorder.Segment
import FeatureRunner.Proofs.Suite.Law

/-!
Promises. Whoever drains the chain takes its last task once and waits for that task alone. All that
was added to the session before has then ended, since the chain is behind it, and what becomes of the
chain later makes no difference.

Main statement: `promise_drains`.
-/

namespace FeatureRunner
open FeatureRunner.World Recorder

/-! ## The course of a promise -/

/-- A promise on a task that has not settled: it is to look how the task has ended, or waits. -/
inductive Process.Promises (world : World) (task : Nat) (next : Outcome → Process) : Process → Prop
  | looks : Promises world task next (waiting task next)
  | joins : Promises world task next (.join task (checking task next))
  | checks (ended : (world.outcome? task).isSome) : Promises world task next (checking task next)

/-- What a process is that takes the chain and waits for it. -/
theorem Recorder.drain_apply (tail : Option Nat) (next : Outcome → Process) :
    drain tail next = match tail with
      | none => next (.ok .null)
      | some task => waiting task next := by
  cases tail with
  | none => rfl
  | some task => exact settled_apply task next

section Course

variable {clock : Calendar.Moment} {passed awaited : History} {world later begun ended : World}
  {task number : Nat} {next : Outcome → Process} {before after process : Process}

/-- A promise goes on where it waits. -/
theorem Process.Promises.passes (promises : before.Promises world task next)
    (inside : task < later.tasks.length)
    (stays : ∀ outcome, world.outcome? task = some outcome → later.outcome? task = some outcome)
    (passes : before.Passes later after) : after.Promises later task next := by
  cases promises with
  | looks => cases passes; exact .looks
  | checks ended =>
    cases passes
    obtain ⟨outcome, ended⟩ := Option.isSome_iff_exists.1 ended
    exact .checks (by rw [stays _ ended]; rfl)
  | joins =>
    cases passes with
    | refl => exact .joins
    | join ended => exact .checks (ended inside)

/-- A step leaves a promise where it is, or takes it on, or gives it the outcome of the task. -/
theorem Process.Promises.goes (promises : before.Promises world task next)
    (inside : task < later.tasks.length)
    (stays : ∀ outcome, world.outcome? task = some outcome → later.outcome? task = some outcome)
    (goes : Process.Goes world later number before after) :
    after.Promises later task next ∨
      ∃ outcome, later.outcome? task = some outcome ∧ after = next outcome := by
  cases goes with
  | passes _ passes => exact .inl (promises.passes inside stays passes)
  | @asks request branch acts =>
    generalize same : Process.ask request branch = before at promises
    cases promises with
    | joins => cases same
    | looks =>
      cases same
      simp only [World.respond]
      cases known : world.outcome? task with
      | none => exact .inl .joins
      | some outcome => exact .inr ⟨outcome, stays _ known, rfl⟩
    | checks ended =>
      cases same
      simp only [World.respond]
      obtain ⟨outcome, known⟩ := Option.isSome_iff_exists.1 ended
      rw [known]
      exact .inr ⟨outcome, stays _ known, rfl⟩
  | calls => cases promises
  | leaves => cases promises
  | adds => cases promises

/-- A promise that has not settled will go on, or the task that it is on has not ended. -/
theorem Process.Promises.queued (promises : process.Promises world task next)
    (wired : world.Wired world.busy) (left : world.process? (.task number) = some process) :
    world.Queued number ∨ world.outcome? task = none := by
  have unsettled : world.outcome? number = none := by
    by_contra settled
    obtain ⟨outcome, ended⟩ := Option.ne_none_iff_exists'.1 settled
    rw [process?_of_outcome wired ended] at left
    cases left
    cases promises
  rcases queued_or_waits wired left unsettled with queued | ⟨awaited, acts, pending, _⟩ |
    ⟨gate, rest, _, rfl⟩
  · exact .inl queued
  · cases promises with
    | looks => rcases acts with acts | acts <;> cases acts
    | checks => rcases acts with acts | acts <;> cases acts
    | joins =>
      rcases acts with acts | acts <;> cases acts
      exact .inr pending
  · cases promises

/-- What has ended stays so. -/
theorem World.Run.outcome? {outcome : Outcome} (earlier : Run quietly (World.initial clock) passed begun)
    (run : Run quietly begun awaited ended) (settled : begun.outcome? task = some outcome) :
    ended.outcome? task = some outcome := by
  have course : keeping.Course passed begun (passed ++ awaited) ended :=
    .of_run passed run fun _ _ => trivial
  have lasts : keeping.Lasts task (fun _ => True) fun _ world => world.outcome? task = some outcome :=
    .outcome task outcome
  exact course.lasts lasts (Serial.of_run earlier) settled

/-- At the end of a run a promise has not settled, or it did at a moment of the run, when the task that
it is on had ended. -/
theorem promise_course (earlier : Run quietly (World.initial clock) passed begun)
    (inside : task < begun.tasks.length) (left : begun.process? (.task number) = some before)
    (promises : before.Promises begun task next) (run : Run quietly begun awaited ended) :
    (∃ process, ended.process? (.task number) = some process ∧ process.Promises ended task next) ∨
      ∃ early late middle outcome, awaited = early ++ late ∧ Run quietly begun early middle ∧
        Run quietly middle late ended ∧ middle.process? (.task number) = some (next outcome) ∧
        middle.outcome? task = some outcome := by
  induction run with
  | refl => exact .inl ⟨before, left, promises⟩
  | @step awaited world later run moved ih =>
    rcases ih with ⟨process, left, promises⟩ | ⟨early, late, middle, outcome, rfl, first, last, settles⟩
    · have here := earlier.trans run
      have serial := Serial.of_run here
      obtain ⟨after, left', evolves, old⟩ := keeping.evolves_of_step serial left moved
      have stepped := step?_stepped serial.wired moved
      have inside : task < later.tasks.length := Nat.lt_of_lt_of_le inside
        (Nat.le_trans (earlier.links_beyond run).1 stepped.length)
      rcases promises.goes inside (fun _ => stepped.settled serial.wired) (evolves.goes left old)
        with promises | ⟨outcome, settled, rfl⟩
      · exact .inl ⟨after, left', promises⟩
      · exact .inr ⟨_, [], later, outcome, by simp, run.step moved, .refl, left', settled⟩
    · exact .inr ⟨early, _, middle, outcome, by simp, first, last.step moved, settles⟩
  | @between awaited world later run between ih =>
    rcases ih with ⟨process, left, promises⟩ | ⟨early, late, middle, outcome, rfl, first, last, settles⟩
    · have here := earlier.trans run
      obtain ⟨after, left', passes⟩ := keeping.passes_of_between (Serial.of_run here) left between
      have inside : task < later.tasks.length := Nat.lt_of_lt_of_le inside
        (Nat.le_trans (earlier.links_beyond run).1 between.length)
      refine .inl ⟨after, left', promises.passes inside (fun _ => ?_) passes⟩
      exact here.outcome? (Run.refl.between between)
    · exact .inr ⟨early, _, middle, outcome, rfl, first, last.between between, settles⟩

end Course

/-! ## The outcome of a promise -/

/-- What a promise gives on a chain, by what the tasks of the segment have come to of their own. -/
inductive Gives (passed : History) (world : World) : Option Nat → List Link → Outcome → Prop
  | nothing : Gives passed world none [] (.ok .null)
  | stood {stand : Nat} : Gives passed world (some stand) [] (.ok waitResult)
  | value {task : Nat} {earlier : List Link} {last : Link} {value : Value}
      (own : ∀ link ∈ earlier, ∃ value, passed.Came world link (.ok value))
      (came : passed.Came world last (.ok value)) :
      Gives passed world (some task) (earlier ++ [last]) (.ok value)
  | fault {task : Nat} {earlier later : List Link} {first : Link} {fault : Fault}
      (own : ∀ link ∈ earlier, ∃ value, passed.Came world link (.ok value))
      (came : passed.Came world first (.error (.fault fault))) :
      Gives passed world (some task) (earlier ++ first :: later) (.error (.fault fault))

section Giving

variable {passed : History} {world : World} {first : Option Nat} {links : List Link} {task : Nat}
  {outcome : Outcome}

theorem Strung.same {first last : Option Nat} (strung : Strung first [] last) : first = last := by
  generalize none : ([] : List Link) = links at strung
  cases strung with
  | nil => rfl
  | cons => cases none

/-- Nothing is behind the end of a chain that is empty. -/
theorem Strung.eq_nil (strung : Strung first links none) : links = [] := by
  rcases List.eq_nil_or_concat links with rfl | ⟨earlier, last, rfl⟩
  · rfl
  · rw [List.concat_eq_append] at strung
    cases strung.split.2.same

/-- What the last task of a segment ends with. -/
theorem Performed.gives (performed : Performed passed world) (strung : Strung first links (some task))
    (inside : ∀ link ∈ links, link ∈ passed.links) (works : ∀ link ∈ links, link.work.isSome)
    (opening : first = none ∨
      ∃ stand ∈ passed.links, first = some stand.number ∧ stand.work = none)
    (ended : world.outcome? task = some outcome) : Gives passed world (some task) links outcome := by
  have serial := performed.serial
  have sound (number : Nat) (same : first = some number) (outcome : Outcome)
      (ended : world.outcome? number = some outcome) : outcome = .ok waitResult := by
    rcases opening with none | ⟨stand, member, same', idle⟩
    · cases none.symm.trans same
    · cases same'.symm.trans same
      exact serial.ok_of_idle member idle ended
  rcases List.eq_nil_or_concat links with rfl | ⟨earlier, last, rfl⟩
  · cases sound _ strung.same _ ended
    exact .stood
  · rw [List.concat_eq_append] at strung inside works ⊢
    obtain rfl := Option.some.inj strung.split.2.same
    rcases outcome with (fault | _) | value
    · -- A fault comes from a task of the segment, and what is before that ends well.
      rcases performed.source strung inside last (by simp) ended with
        ⟨source, member, _, came⟩ | ⟨number, same, failed⟩
      · obtain ⟨before, after, split⟩ := List.append_of_mem member
        rw [split] at strung inside works ⊢
        have ready := (serial.ready_of_begun (inside source (by simp)) came.begun).2
        have own := (performed.own strung.split.1 (fun link found => inside link (by simp [found]))
          (fun link found => works link (by simp [found])) ready).1
        exact .fault (fun link found => (own link found).imp fun _ known => known.1) came
      · cases sound number same _ failed
    · exact absurd ended (serial.uncancelled _)
    · have own := (performed.own strung inside works fun number same => by
        cases same
        exact ⟨value, ended⟩).1
      obtain ⟨value', came, ended'⟩ := own last (by simp)
      cases ended.symm.trans ended'
      exact .value (fun link found => (own link (by simp [found])).imp fun _ known => known.1) came

end Giving

/-- In every run of the loop, whatever comes from outside and whatever becomes of the chain: a promise
that has not settled will go on, or some task of the session that was added before it has not ended.
When it settles, all of those have ended, and it gives what the tasks of its segment have come to. -/
theorem promise_drains {clock : Calendar.Moment} {passed meanwhile awaited : History}
    {given begun ended : World} {number : Nat} {next : Outcome → Process}
    (run : Run quietly (World.initial clock) passed given)
    (further : Run quietly given meanwhile begun)
    (begins : begun.process? (.task number) = some (drain given.recorder.tail next))
    (awaits : Run quietly begun awaited ended) :
    (∃ before during, passed = before ++ during ∧ History.Segment before during) ∧
    ∀ before during, passed = before ++ during → History.Segment before during →
      (∃ tail process, given.recorder.tail = some tail ∧
        ended.process? (.task number) = some process ∧ process.Promises ended tail next ∧
        (ended.Queued number ∨ ∃ link ∈ passed.links, link.session = given.recorder.session ∧
          ended.outcome? link.number = none)) ∨
      ∃ early late middle outcome, awaited = early ++ late ∧ Run quietly begun early middle ∧
        Run quietly middle late ended ∧ middle.process? (.task number) = some (next outcome) ∧
        (∀ task, given.recorder.tail = some task → middle.outcome? task = some outcome) ∧
        Settled passed given middle ∧
        Gives (passed ++ meanwhile ++ early) middle given.recorder.tail during.links outcome := by
  refine ⟨passed.exists_segment, ?_⟩
  rintro before during rfl segment
  have serial := Serial.of_run run
  obtain ⟨first, strings⟩ := strings_of_run run rfl segment
  have started := run.trans further
  have strung := strings.strung
  rcases chain : given.recorder.tail with _ | task
  · rw [drain_apply, chain] at begins
    rw [chain] at strung
    right
    refine ⟨[], awaited, begun, .ok .null, rfl, .refl, awaits, begins, by simp, ?_, ?_⟩
    · exact (serial.settled_of_free chain).mono fun _ _ settled => run.outcome? further settled
    · rw [strung.eq_nil]
      exact .nothing
  · rw [drain_apply, chain] at begins
    rw [chain] at strung
    have covers := serial.covers chain
    have ⟨anchor, member, number', session, _⟩ := covers
    have inside : task < begun.tasks.length := by
      rw [← number']
      exact Nat.lt_of_lt_of_le (serial.inside anchor member) (run.links_beyond further).1
    rcases promise_course started inside begins .looks awaits with
      ⟨process, left, promises⟩ | ⟨early, late, middle, outcome, split, begin', rest, settles, settled⟩
    · left
      refine ⟨task, process, rfl, left, promises, ?_⟩
      have last := started.trans awaits
      refine (promises.queued (Serial.of_run last).wired left).imp_right fun pending => ?_
      exact ⟨anchor, member, session, number' ▸ pending⟩
    · right
      have reached := started.trans begin'
      have performed := Performed.of_run reached
      have links (link : Link) (found : link ∈ History.links (before ++ during)) :
          link ∈ History.links (before ++ during ++ meanwhile ++ early) := by
        simp only [History.links_join, List.mem_append] at found ⊢
        exact .inl (.inl found)
      refine ⟨early, late, middle, outcome, split, begin', rest, settles, ?_, ?_, ?_⟩
      · rintro _ ⟨⟩
        exact settled
      · exact (covers.further links).settled performed.serial links settled
      · refine performed.gives strung (fun link found => links link ?_)
          (fun link found => (strings.works link found).1)
          (strings.first.imp_right fun ⟨stand, found, known⟩ => ⟨stand, links stand ?_, known⟩) settled
        · exact History.mem_links_right before found
        · exact History.mem_links_left during found

/-- A loop in which `addAround` has added three tasks, and is about to recover. -/
def addedWorld : World :=
  (World.play 4 addingWorld).2

/-- The promise on them is awaited by a task of its own, while `addAround` goes on. -/
def promisingWorld : World :=
  (addedWorld.spawn (drain addedWorld.recorder.tail).toProcess).1

theorem promise_drains_addAround : ∃ passed awaited ended,
    Run quietly (World.initial ⟨0, none⟩) passed addedWorld ∧
    Run quietly addedWorld [] promisingWorld ∧
    promisingWorld.process? (.task 3) = some (drain addedWorld.recorder.tail .done) ∧
    Run quietly promisingWorld awaited ended ∧
    (∃ before during early middle, passed = before ++ during ∧ History.Segment before during ∧
      Settled passed addedWorld middle ∧
      Gives (passed ++ [] ++ early) middle addedWorld.recorder.tail during.links
        (.error (.fault .resultNotSet))) ∧
    ended.recorder.trace =
      ["before", "raises", "error: " ++ Fault.resultNotSet.message, "recovered"] := by
  have entered : Run quietly (World.initial ⟨0, none⟩) [] addingWorld := by
    have looping : Run quietly (World.initial ⟨0, none⟩) []
        { World.initial ⟨0, none⟩ with looping := true } := Run.refl.between (.outside (.alters rfl))
    exact looping.between (.outside (.enters addAround_mute.toProcess rfl))
  have run : Run quietly (World.initial ⟨0, none⟩) (World.play 4 addingWorld).1 addedWorld :=
    entered.trans (Run.play 4 addingWorld)
  have obeys : (drain addedWorld.recorder.tail).toProcess.Obeys mute :=
    Program.Obeys.toProcess (settled_obeys ⟨by simp [mute], fun _ _ fair => fair⟩ (by simp [mute]))
  have further : Run quietly addedWorld [] promisingWorld :=
    Run.refl.between (.outside (.spawns obeys))
  have begins : promisingWorld.process? (.task 3) = some (drain addedWorld.recorder.tail .done) := rfl
  have awaits : Run quietly promisingWorld _ _ := Run.play 60 promisingWorld
  obtain ⟨⟨before, during, split, segment⟩, drains⟩ := promise_drains run further begins awaits
  have tail : addedWorld.recorder.tail = some 2 := rfl
  have ended : (World.play 60 promisingWorld).2.outcome? 2 = some (.error (.fault .resultNotSet)) :=
    rfl
  have settled : (World.play 60 promisingWorld).2.outcome? 3 = some (.error (.fault .resultNotSet)) :=
    rfl
  refine ⟨_, _, _, run, further, begins, awaits, ?_, by decide +kernel⟩
  rcases drains before during split segment with
    ⟨_, process, _, left, promises, _⟩ |
      ⟨early, late, middle, outcome, _, first, last, _, known, here, gives⟩
  · have serial := Serial.of_run ((run.trans further).trans awaits)
    rw [process?_of_outcome serial.wired settled] at left
    cases left
    cases promises
  · have known := ((run.trans further).trans first).outcome? last (known _ tail)
    cases known.symm.trans ended
    exact ⟨before, during, early, middle, split, segment, here, gives⟩

end FeatureRunner
