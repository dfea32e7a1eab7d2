import FeatureRunner.Proofs.Recorder.Deeds
import FeatureRunner.Proofs.World.Waits
import Mathlib.Data.List.Induction

/-!
Segments of the chain. A start or a recover detaches what is added later from what was added before;
the tasks that are added until the next one make a segment, each behind the last. So a failure is
passed on to the end of its segment, and no further.

Main statement: `failure_poisons_segment`.
-/

namespace FeatureRunner
open FeatureRunner.World

/-- The next step detaches what is added later. A recover that raises does not. -/
def World.Resets (world : World) : Prop :=
  match world.act? with
  | some (_, .ask (.recorder _ .start)) => True
  | some (_, .ask (.recorder _ .startUnlessRunning)) => world.recorder.running = false
  | some (_, .ask (.recorder _ .recover)) => world.recover.1.isOk = true
  | _ => False

instance : DecidablePred World.Resets := fun world => by
  unfold World.Resets
  split <;> infer_instance

/-- Links of which each is behind the last. -/
inductive Strung : Option Nat → List Link → Option Nat → Prop
  | nil (previous : Option Nat) : Strung previous [] previous
  | cons {link : Link} {links : List Link} {last : Option Nat}
      (strung : Strung (some link.number) links last) : Strung link.previous (link :: links) last

theorem Strung.snoc {first last : Option Nat} {links : List Link} {link : Link}
    (strung : Strung first links last) (behind : link.previous = last) :
    Strung first (links ++ [link]) (some link.number) := by
  induction strung with
  | nil previous =>
    subst behind
    exact .cons (.nil _)
  | cons _ ih => exact .cons (ih behind)

/-- A chain falls apart where one of its links is. -/
theorem Strung.split {first last : Option Nat} {earlier later : List Link} {link : Link}
    (strung : Strung first (earlier ++ link :: later) last) :
    Strung first earlier link.previous ∧ Strung (some link.number) later last := by
  induction earlier generalizing first with
  | nil =>
    cases strung with
    | cons strung => exact ⟨.nil _, strung⟩
  | cons before earlier ih =>
    cases strung with
    | cons strung =>
      obtain ⟨strung, strung'⟩ := ih strung
      exact ⟨.cons strung, strung'⟩

/-! ## How a segment is strung -/

theorem World.chained_of_resets {world : World} (resets : world.Resets) :
    world.recorderAfter.tail = none ∨ ∃ stand, world.link? = some stand ∧ stand.work = none ∧
      world.recorderAfter.tail = some stand.number := by
  unfold World.Resets at resets
  split at resets
  · rename_i owner role acts
    simp [recorderAfter, acts, operate, Recorder.start]
  · rename_i owner role acts
    simp [recorderAfter, acts, operate, Recorder.startUnlessRunning, resets, Recorder.start]
  · rename_i owner role acts
    simp only [recorderAfter, World.link?, acts, operate]
    rcases recover_cases world with
      ⟨_, ⟨same, still⟩ | ⟨result, _⟩⟩ | ⟨previous, tail, unsettled, looping, result⟩
    · revert resets
      unfold recover
      split
      · exact fun _ => .inl rfl
      · split
        · exact fun _ => .inl rfl
        · simp [still, Except.isOk, Except.toBool]
    · exact .inl (by rw [result])
    · refine .inr ⟨⟨world.tasks.length, world.recorder.session, some previous, none⟩, ?_, rfl, ?_⟩
      · simp [tail, unsettled, looping]
      · rw [result]
  · exact resets.elim

theorem World.recover_failed {world : World} (failed : world.recover.1.isOk ≠ true) :
    world.looping = false ∧ world.recover.2 = world := by
  revert failed
  unfold recover
  split
  · simp [Except.isOk, Except.toBool]
  · split
    · simp [Except.isOk, Except.toBool]
    · split
      · rename_i still
        exact fun _ => ⟨by simpa using still, rfl⟩
      · simp [Except.isOk, Except.toBool]

theorem World.chained_of_unreset {world : World} (apart : ¬world.Resets) :
    world.recorderAfter.session = world.recorder.session ∧
      (world.link? = none ∧ world.recorderAfter.tail = world.recorder.tail ∨
        ∃ link, world.link? = some link ∧ link.work.isSome ∧
          link.previous = world.recorder.tail ∧ world.recorderAfter.tail = some link.number) := by
  have keeps (same : world.recorderAfter = world.recorder) (none : world.link? = none) :
      world.recorderAfter.session = world.recorder.session ∧
        (world.link? = Option.none ∧ world.recorderAfter.tail = world.recorder.tail ∨
          ∃ link, world.link? = some link ∧ link.work.isSome ∧
            link.previous = world.recorder.tail ∧
            world.recorderAfter.tail = some link.number) := by
    rw [same]
    exact ⟨rfl, .inl ⟨none, rfl⟩⟩
  rcases acts : world.act? with _ | ⟨owner, act⟩
  · exact keeps (by simp [recorderAfter, acts]) (by simp [World.link?, acts])
  cases act with
  | add role name body =>
    rcases addTask_cases world name body with ⟨looping, result⟩ | ⟨looping, result⟩
    · exact keeps (by simp [recorderAfter, acts, result]) (by simp [World.link?, acts, looping])
    · simp [recorderAfter, World.link?, acts, result, looping]
  | ask request =>
    cases request with
    | record session line =>
      simp only [recorderAfter, World.link?, acts, Recorder.record]
      split <;> simp
    | recorder role call =>
      cases call with
      | start => exact (apart (by simp [World.Resets, acts])).elim
      | stop => simp [recorderAfter, World.link?, acts, operate, Recorder.stop]
      | startUnlessRunning =>
        have running : world.recorder.running = true := by simpa [World.Resets, acts] using apart
        simp [recorderAfter, World.link?, acts, operate, Recorder.startUnlessRunning, running]
      | recover =>
        have failed : world.recover.1.isOk ≠ true := by simpa [World.Resets, acts] using apart
        obtain ⟨looping, same⟩ := recover_failed failed
        refine keeps (by simp [recorderAfter, acts, operate, same]) ?_
        simp only [World.link?, acts, looping]
        cases world.recorder.tail <;> simp
    | _ => exact keeps (by simp [recorderAfter, acts]) (by simp [World.link?, acts])
  | _ => exact keeps (by simp [recorderAfter, acts]) (by simp [World.link?, acts])

/-- A part of a history in which nothing is detached, from where something was. -/
structure World.History.Segment (before during : History) : Prop where
  unreset : ∀ past ∈ during, ¬past.Resets
  begins : ∀ past ∈ before.getLast?, past.Resets

/-- A history falls apart behind its latest world of a kind. -/
theorem World.History.exists_latest (passed : History) (kind : World → Prop) [DecidablePred kind] :
    ∃ before since, passed = before ++ since ∧ (∀ past ∈ since, ¬kind past) ∧
      ∀ past ∈ before.getLast?, kind past := by
  induction passed using List.reverseRecOn with
  | nil => exact ⟨[], [], rfl, by simp, by simp⟩
  | append_singleton passed last ih =>
    by_cases here : kind last
    · exact ⟨passed ++ [last], [], by simp, by simp, by simpa using here⟩
    · obtain ⟨before, since, rfl, none, begins⟩ := ih
      refine ⟨before, since ++ [last], by simp, fun past member => ?_, begins⟩
      rcases List.mem_append.1 member with member | member
      · exact none past member
      · exact List.mem_singleton.1 member ▸ here

/-- Every history has a latest segment. -/
theorem World.History.exists_segment (passed : History) :
    ∃ before during, passed = before ++ during ∧ History.Segment before during := by
  obtain ⟨before, during, split, unreset, begins⟩ := passed.exists_latest World.Resets
  exact ⟨before, during, split, unreset, begins⟩

/-- What is added in a segment is strung behind its beginning. -/
structure World.History.Strings (before during : History) (world : World) (first : Option Nat) :
    Prop where
  strung : Strung first during.links world.recorder.tail
  works : ∀ link ∈ during.links, link.work.isSome ∧ link.session = world.recorder.session
  first : first = none ∨
    ∃ stand ∈ before.links, first = some stand.number ∧ stand.work = none

section Strings

variable {clock : Calendar.Moment} {before during passed : History} {world : World}

theorem strings_of_run (run : Run quietly (World.initial clock) passed world)
    (split : passed = before ++ during) (segment : History.Segment before during) :
    ∃ first, History.Strings before during world first := by
  induction run generalizing before during with
  | refl =>
    obtain ⟨rfl, rfl⟩ := List.append_eq_nil_iff.1 split.symm
    exact ⟨none, .nil _, by simp [History.links], .inl rfl⟩
  | @step passed world next run moved ih =>
    have stepped := step?_stepped (Serial.of_run run).wired moved
    have recorder := stepped.recorder
    rcases List.eq_nil_or_concat during with rfl | ⟨during, last, rfl⟩
    · rw [List.append_nil] at split
      subst split
      refine ⟨next.recorder.tail, .nil _, by simp [History.links], ?_⟩
      rw [recorder, History.links_append]
      rcases World.chained_of_resets (segment.begins world (by simp)) with tail | ⟨stand, made, idle, tail⟩
      · exact .inl tail
      · exact .inr ⟨stand, by simp [made], tail, idle⟩
    · rw [List.concat_eq_append, ← List.append_assoc] at split
      obtain ⟨rfl, same⟩ := List.append_inj' split rfl
      cases same
      rw [List.concat_eq_append] at segment ⊢
      obtain ⟨first, strings⟩ := ih rfl ⟨fun past member => segment.unreset past (by simp [member]), segment.begins⟩
      obtain ⟨session, keeps⟩ := World.chained_of_unreset (segment.unreset world (by simp))
      refine ⟨first, ?_, ?_, strings.first⟩
      · rw [recorder, History.links_append]
        rcases keeps with ⟨none, tail⟩ | ⟨link, made, working, behind, tail⟩
        · simpa [none, tail] using strings.strung
        · simpa [made, tail] using strings.strung.snoc behind
      · rw [recorder, session, History.links_append]
        intro link member
        rcases List.mem_append.1 member with old | made
        · exact strings.works link old
        · have made := Option.mem_toList.1 made
          refine ⟨?_, (Serial.number_of_link made).2⟩
          rcases keeps with ⟨none, _⟩ | ⟨link', made', working, _⟩
          · simp [none] at made
          · cases made.symm.trans made'
            exact working
  | between run between ih =>
    obtain ⟨first, strings⟩ := ih split segment
    refine ⟨first, ?_, ?_, strings.first⟩
    · rw [between.recorder]
      exact strings.strung
    · rw [between.recorder]
      exact strings.works

end Strings

/-! ## How a failure is passed on -/

section Passing

variable {passed : History} {world : World} {link : Link} {previous : Nat} {fault : Fault}

/-- A link ends after it has begun, or as the task before it, or else it stands for that. -/
theorem Stage.of_done {said : List String} {outcome : Outcome}
    (stage : Stage world link said (.done outcome)) :
    said ≠ [] ∧ link.work.isSome ∧ link.Ready world ∨
      ∃ previous, link.previous = some previous ∧
        ((∃ failure, link.work.isSome ∧ outcome = .error failure ∧
            world.outcome? previous = some (.error failure)) ∨
          link.work = none ∧ outcome = .ok Recorder.waitResult) := by
  generalize ending : Process.done outcome = process at stage
  cases stage with
  | waits => cases ending
  | joins => cases ending
  | checks => cases ending
  | opens => cases ending
  | poisoned behind work ended =>
    cases ending
    exact .inr ⟨_, behind, .inl ⟨_, work, rfl, ended⟩⟩
  | works work ready => exact .inl ⟨by simp, by simp [work], ready⟩
  | reported work ready => exact .inl ⟨by simp, by simp [work], ready⟩
  | stands => cases ending
  | stood behind work =>
    cases ending
    exact .inr ⟨_, behind, .inr ⟨work, rfl⟩⟩

/-- A link whose task before it has ended does not wait for long. -/
theorem Serial.queued_of_late (serial : Serial passed world) (member : link ∈ passed.links)
    (late : link.Late world) (unbegun : ¬passed.Begun link.number)
    (unsettled : world.outcome? link.number = none) : world.Queued link.number := by
  obtain ⟨process, left⟩ := process?_isSome (serial.inside link member)
  have stage := serial.staged link member process left
  have silent : passed.said link.number = [] := by simpa [History.Begun] using unbegun
  have waits {act : Act} (acts : process.act? = some act) (waiting : act.Waits) :
      ∃ previous, link.previous = some previous ∧ act = .join previous := by
    generalize passed.said link.number = said at stage silent
    cases stage with
    | waits => cases acts; exact waiting.elim
    | joins behind => cases acts; exact ⟨_, behind, rfl⟩
    | checks => cases acts; exact waiting.elim
    | opens => cases acts; exact waiting.elim
    | poisoned => cases acts
    | works => cases silent
    | reported => cases acts
    | stands behind => cases acts; exact ⟨_, behind, rfl⟩
    | stood => cases acts
  rcases queued_or_waits serial.wired left unsettled with queued | ⟨task, acts, pending, _⟩ |
    ⟨gate, rest, _, rfl⟩
  · exact queued
  · rcases acts with acts | acts
    · obtain ⟨previous, behind, same⟩ := waits acts trivial
      cases same
      simpa [pending] using late _ behind
    · obtain ⟨_, _, same⟩ := waits acts trivial
      cases same
  · obtain ⟨_, _, same⟩ := waits rfl trivial
    cases same

theorem Serial.ready_of_begun (serial : Serial passed world) (member : link ∈ passed.links)
    (begun : passed.Begun link.number) : link.work.isSome ∧ link.Ready world := by
  obtain ⟨process, left⟩ := process?_isSome (serial.inside link member)
  have stage := serial.staged link member process left
  unfold History.Begun at begun
  generalize passed.said link.number = said at stage begun
  cases stage with
  | works work ready => exact ⟨by simp [work], ready⟩
  | reported work ready => exact ⟨by simp [work], ready⟩
  | _ => exact absurd rfl begun

/-- What stands for an abandoned chain ends well. -/
theorem Serial.ok_of_idle (serial : Serial passed world) (member : link ∈ passed.links)
    (idle : link.work = none) {outcome : Outcome}
    (ended : world.outcome? link.number = some outcome) : outcome = .ok Recorder.waitResult := by
  rcases (serial.staged link member _ (process?_of_outcome serial.wired ended)).of_done with
    ⟨_, work, _⟩ | ⟨_, _, ⟨_, work, _⟩ | ⟨_, stood⟩⟩
  · simp [idle] at work
  · simp [idle] at work
  · exact stood

/-- The task that a link is behind has ended with a fault, if it has ended. -/
def World.Doomed (world : World) (number : Nat) (fault : Fault) : Prop :=
  ∀ outcome, world.outcome? number = some outcome → outcome = .error (.fault fault)

theorem Serial.doomed_next (serial : Serial passed world) (member : link ∈ passed.links)
    (work : link.work.isSome) (behind : link.previous = some previous)
    (doomed : world.Doomed previous fault) :
    ¬passed.Begun link.number ∧ world.Doomed link.number fault := by
  have unready : ¬link.Ready world := by
    intro ready
    obtain ⟨value, ended⟩ := ready previous behind
    cases doomed _ ended
  constructor
  · intro begun
    exact unready (serial.ready_of_begun member begun).2
  · intro outcome ended
    have stage := serial.staged link member _ (process?_of_outcome serial.wired ended)
    rcases stage.of_done with ⟨_, _, ready⟩ | ⟨other, behind', ⟨failure, _, rfl, ended'⟩ | ⟨idle, _⟩⟩
    · exact absurd ready unready
    · cases behind.symm.trans behind'
      exact doomed _ ended'
    · simp [idle] at work

/-- The earliest link of a session that has not ended has begun, or will before long. -/
theorem Serial.progress (serial : Serial passed world) (member : link ∈ passed.links)
    (unsettled : world.outcome? link.number = none) :
    ∃ active ∈ passed.links, active.session = link.session ∧ active.number ≤ link.number ∧
      world.outcome? active.number = none ∧
      (passed.Begun active.number ∨ world.Queued active.number) := by
  induction number : link.number using Nat.strongRecOn generalizing link with
  | ind bound ih =>
    subst number
    by_cases late : link.Late world
    · refine ⟨link, member, rfl, Nat.le_refl _, unsettled, ?_⟩
      by_cases begun : passed.Begun link.number
      · exact .inl begun
      · exact .inr (serial.queued_of_late member late begun unsettled)
    · simp only [Link.Late, not_forall, Option.not_isSome_iff_eq_none] at late
      obtain ⟨previous, behind, pending⟩ := late
      obtain ⟨before, anchor, inside, rfl, mine⟩ := (serial.follows link member).anchored _ behind
      obtain ⟨active, inside', mine', upTo, found⟩ := ih _ before inside pending rfl
      exact ⟨active, inside', mine'.trans mine, Nat.le_trans upTo (Nat.le_of_lt before), found⟩

/-- The first task of a segment begins when those before it have ended. -/
theorem Serial.begins (serial : Serial passed world) {before after : List Link}
    (all : passed.links = before ++ (link :: after)) (work : link.work.isSome)
    (opening : link.previous = none ∨
      ∃ stand ∈ before, link.previous = some stand.number ∧ stand.work = none)
    (settled : ∀ earlier ∈ before, earlier.session = link.session → earlier.work.isSome →
      (world.outcome? earlier.number).isSome) :
    passed.Begun link.number ∨
      ∃ active ∈ passed.links, active.session = link.session ∧ active.number ≤ link.number ∧
        world.outcome? active.number = none ∧ world.Queued active.number := by
  have member : link ∈ passed.links := by simp [all]
  rcases ended : world.outcome? link.number with _ | outcome
  · obtain ⟨active, among, mine, upTo, unsettled, begun | queued⟩ := serial.progress member ended
    · left
      have increasing := serial.increasing
      rw [all, List.pairwise_append, List.pairwise_cons] at increasing
      rw [all, List.mem_append, List.mem_cons] at among
      rcases among with among | rfl | among
      · have works := (serial.ready_of_begun (by simp [all, among]) begun).1
        simpa [unsettled] using settled active among mine works
      · exact begun
      · exact absurd (increasing.2.1.1 active among) (Nat.not_lt_of_le upTo)
    · exact .inr ⟨active, among, mine, upTo, unsettled, queued⟩
  · rcases (serial.staged link member _ (process?_of_outcome serial.wired ended)).of_done with
      ⟨begun, _⟩ | ⟨previous, behind, ⟨failure, _, _, failed⟩ | ⟨idle, _⟩⟩
    · exact .inl begun
    · rcases opening with none | ⟨stand, found, same, idle⟩
      · cases none.symm.trans behind
      · cases same.symm.trans behind
        cases serial.ok_of_idle (by simp [all, found]) idle failed
    · simp [idle] at work

end Passing

section Chains

variable {passed : History} {world : World} {first last : Option Nat} {links : List Link}
  {number : Nat} {fault : Fault}

theorem Serial.later (serial : Serial passed world) (strung : Strung (some number) links last)
    (inside : ∀ link ∈ links, link ∈ passed.links) : ∀ link ∈ links, number < link.number := by
  induction links generalizing number with
  | nil => simp
  | cons head links ih =>
    obtain ⟨member, inside⟩ := List.forall_mem_cons.1 inside
    generalize before : some number = previous at strung
    cases strung with
    | cons strung =>
      have below := ((serial.follows head member).anchored number before.symm).1
      refine List.forall_mem_cons.2 ⟨below, fun link found => ?_⟩
      exact Nat.lt_trans below (ih strung inside link found)

theorem Serial.doomed (serial : Serial passed world) (strung : Strung (some number) links last)
    (inside : ∀ link ∈ links, link ∈ passed.links) (works : ∀ link ∈ links, link.work.isSome)
    (doomed : world.Doomed number fault) :
    ∀ link ∈ links, ¬passed.Begun link.number ∧ world.Doomed link.number fault := by
  induction links generalizing number with
  | nil => simp
  | cons head links ih =>
    obtain ⟨member, inside⟩ := List.forall_mem_cons.1 inside
    obtain ⟨work, works⟩ := List.forall_mem_cons.1 works
    generalize before : some number = previous at strung
    cases strung with
    | cons strung =>
      have next := serial.doomed_next member work before.symm doomed
      exact List.forall_mem_cons.2 ⟨next, ih strung inside works next.2⟩

/-- The links behind one that has ended end one after the other. -/
theorem Serial.reached (serial : Serial passed world) (strung : Strung (some number) links last)
    (inside : ∀ link ∈ links, link ∈ passed.links)
    (unbegun : ∀ link ∈ links, ¬passed.Begun link.number)
    (ended : (world.outcome? number).isSome) :
    ∀ link ∈ links, (world.outcome? link.number).isSome ∨
      ∃ active ∈ links, active.number ≤ link.number ∧ world.outcome? active.number = none ∧
        world.Queued active.number := by
  induction links generalizing number with
  | nil => simp
  | cons head links ih =>
    obtain ⟨member, inside'⟩ := List.forall_mem_cons.1 inside
    obtain ⟨waits, unbegun'⟩ := List.forall_mem_cons.1 unbegun
    generalize before : some number = previous at strung
    cases strung with
    | cons strung =>
      by_cases settled : (world.outcome? head.number).isSome
      · refine List.forall_mem_cons.2 ⟨.inl settled, fun link found => ?_⟩
        refine (ih strung inside' unbegun' settled link found).imp_right ?_
        rintro ⟨active, among, rest⟩
        exact ⟨active, List.mem_cons_of_mem _ among, rest⟩
      · have unsettled := Option.not_isSome_iff_eq_none.1 settled
        have late : head.Late world := by
          intro previous behind
          cases before.trans behind
          exact ended
        have queued := serial.queued_of_late member late waits unsettled
        refine fun link found => .inr ⟨head, by simp, ?_, unsettled, queued⟩
        rcases List.mem_cons.1 found with rfl | found
        · exact Nat.le_refl _
        · exact Nat.le_of_lt (serial.later strung inside' link found)

/-- What comes before a link that is ready has ended well, each with a result of its own. -/
theorem Performed.own (performed : Performed passed world) (strung : Strung first links last)
    (inside : ∀ link ∈ links, link ∈ passed.links) (works : ∀ link ∈ links, link.work.isSome)
    (ended : ∀ number, last = some number → ∃ value, world.outcome? number = some (.ok value)) :
    (∀ link ∈ links, ∃ value, passed.Came world link (.ok value) ∧
        world.outcome? link.number = some (.ok value)) ∧
      ∀ number, first = some number → ∃ value, world.outcome? number = some (.ok value) := by
  have serial := performed.serial
  induction strung with
  | nil => exact ⟨by simp, ended⟩
  | @cons link links last strung ih =>
    obtain ⟨member, inside⟩ := List.forall_mem_cons.1 inside
    obtain ⟨work, works⟩ := List.forall_mem_cons.1 works
    obtain ⟨each, here⟩ := ih inside works ended
    obtain ⟨value, settled⟩ := here _ rfl
    have left := process?_of_outcome serial.wired settled
    rcases (serial.staged link member _ left).of_done with
      ⟨begun, _, ready⟩ | ⟨_, _, ⟨failure, _, failed, _⟩ | ⟨idle, _⟩⟩
    · exact ⟨List.forall_mem_cons.2 ⟨⟨value, performed.came member begun left, settled⟩, each⟩, ready⟩
    · cases failed
    · simp [idle] at work

/-- A fault comes from a link that raised it, or from before. -/
theorem Performed.source (performed : Performed passed world) (strung : Strung first links last)
    (inside : ∀ link ∈ links, link ∈ passed.links) :
    ∀ link ∈ links, world.outcome? link.number = some (.error (.fault fault)) →
      (∃ source ∈ links, source.number ≤ link.number ∧
        passed.Came world source (.error (.fault fault))) ∨
      ∃ number, first = some number ∧ world.outcome? number = some (.error (.fault fault)) := by
  have serial := performed.serial
  induction strung with
  | nil => simp
  | @cons head links last strung ih =>
    obtain ⟨member, inside'⟩ := List.forall_mem_cons.1 inside
    have here (ended : world.outcome? head.number = some (.error (.fault fault))) :
        passed.Came world head (.error (.fault fault)) ∨
          ∃ number, head.previous = some number ∧
            world.outcome? number = some (.error (.fault fault)) := by
      have left := process?_of_outcome serial.wired ended
      rcases (serial.staged head member _ left).of_done with
        ⟨begun, _⟩ | ⟨previous, behind, ⟨failure, _, failed, ended'⟩ | ⟨_, stood⟩⟩
      · exact .inl (performed.came member begun left)
      · cases failed
        exact .inr ⟨previous, behind, ended'⟩
      · cases stood
    intro link found ended
    rcases List.mem_cons.1 found with rfl | found
    · exact (here ended).imp_left fun came => ⟨link, by simp, Nat.le_refl _, came⟩
    · rcases ih inside' link found ended with ⟨source, among, upTo, came⟩ | ⟨number, same, failed⟩
      · exact .inl ⟨source, List.mem_cons_of_mem _ among, upTo, came⟩
      · cases same
        refine (here failed).imp_left fun came => ⟨head, by simp, ?_, came⟩
        exact Nat.le_of_lt (serial.later strung inside' link found)

end Chains

namespace World.History.Came

variable {passed : History} {world : World} {link : Link} {outcome : Outcome}

theorem begun (came : passed.Came world link outcome) : passed.Begun link.number := by
  obtain ⟨work, looks, did, performs, reports, left⟩ := came
  unfold History.Begun
  rw [History.said_eq, did]
  simp [Act.line?, Request.line?]

theorem ends (came : passed.Came world link outcome) (serial : Serial passed world)
    {ending : Outcome} (ended : world.outcome? link.number = some ending) : ending = outcome := by
  obtain ⟨work, looks, did, performs, reports, left⟩ := came
  cases left.symm.trans (process?_of_outcome serial.wired ended)
  exact Link.report_performs reports

/-- A link that is to report its outcome does so before long. -/
theorem queued (came : passed.Came world link outcome) (serial : Serial passed world)
    (unsettled : world.outcome? link.number = none) : world.Queued link.number := by
  obtain @⟨_, _, rest, _, _, _, work, looks, did, performs, reports, left⟩ := came
  have active (act : Act) (acts : rest.act? = some act) : ¬act.Waits := by
    rcases outcome with (fault | _) | value
    · rcases reports.of_ask with ⟨_, rfl⟩ | ⟨_, _, _, _, further⟩
      · cases acts
        exact id
      · cases further.of_done.2
        cases acts
    · cases reports.of_done.2
      cases acts
    · cases reports.of_done.2
      cases acts
  rcases queued_or_waits serial.wired left unsettled with queued | ⟨task, acts | acts, _⟩ |
    ⟨gate, _, _, rfl⟩
  · exact queued
  · exact absurd trivial (active _ acts)
  · exact absurd trivial (active _ acts)
  · exact absurd trivial (active _ rfl)

end World.History.Came

/-- What a failure does to a segment, and what it does not do. -/
structure Contained (before during passed : History) (world : World) : Prop where
  own : ∀ earlier first later fault, during.links = earlier ++ first :: later →
    passed.Came world first (.error (.fault fault)) →
    ∀ link ∈ earlier, ∃ value, passed.Came world link (.ok value) ∧
      world.outcome? link.number = some (.ok value)
  poisons : ∀ earlier first later fault, during.links = earlier ++ first :: later →
    passed.Came world first (.error (.fault fault)) →
    ∀ link ∈ later, ¬passed.Begun link.number ∧
      (∀ act ∈ passed.deeds (.task link.number), act.Looks) ∧
      (world.outcome? link.number = some (.error (.fault fault)) ∨
        ∃ active ∈ first :: later, active.number ≤ link.number ∧
          world.outcome? active.number = none ∧ world.Queued active.number)
  stays : ∀ link ∈ during.links, ∀ fault,
    world.outcome? link.number = some (.error (.fault fault)) →
    ∃ first ∈ during.links, first.number ≤ link.number ∧
      passed.Came world first (.error (.fault fault))
  begins : ∀ first later, during.links = first :: later →
    (∀ link ∈ before.links, link.session = first.session → link.work.isSome →
      (world.outcome? link.number).isSome) →
    passed.Begun first.number ∨
      ∃ active ∈ passed.links, active.session = first.session ∧ active.number ≤ first.number ∧
        world.outcome? active.number = none ∧ world.Queued active.number

section Segments

variable {clock : Calendar.Moment} {before during after : History} {world : World}

theorem strings_of_part (run : Run quietly (World.initial clock) (before ++ during ++ after) world)
    (segment : History.Segment before during) : ∃ first last, Strung first during.links last ∧
      (∀ link ∈ during.links, link.work.isSome) ∧
      (first = none ∨ ∃ stand ∈ before.links, first = some stand.number ∧ stand.work = none) := by
  obtain ⟨middle, run⟩ : ∃ middle, Run quietly (World.initial clock) (before ++ during) middle := by
    cases after with
    | nil => exact ⟨world, by simpa using run⟩
    | cons past after => exact ⟨past, run.split.1⟩
  obtain ⟨first, strings⟩ := strings_of_run run rfl segment
  exact ⟨first, _, strings.strung, fun link found => (strings.works link found).1, strings.first⟩

/-- In every run of the loop, whatever comes from outside, a failure fails the rest of its segment
without running it, and nothing else. -/
theorem failure_poisons_segment
    (run : Run quietly (World.initial clock) (before ++ during ++ after) world)
    (segment : History.Segment before during) :
    Contained before during (before ++ during ++ after) world := by
  have performed := Performed.of_run run
  have serial := performed.serial
  obtain ⟨origin, last, strung, works, opening⟩ := strings_of_part run segment
  have all : History.links (before ++ during ++ after) =
      before.links ++ (during.links ++ after.links) := by
    simp [History.links_join]
  have inside (link : Link) (found : link ∈ during.links) :
      link ∈ History.links (before ++ during ++ after) := by
    rw [all]
    simp [found]
  constructor
  case own =>
    intro earlier first later fault split came
    rw [split] at strung inside works
    have ready := (serial.ready_of_begun (inside first (by simp)) came.begun).2
    exact (performed.own strung.split.1 (fun link found => inside link (by simp [found]))
      (fun link found => works link (by simp [found])) ready).1
  case poisons =>
    intro earlier first later fault split came
    rw [split] at strung inside works
    have strung := strung.split.2
    have inside (link : Link) (found : link ∈ later) := inside link (by simp [found])
    have works (link : Link) (found : link ∈ later) := works link (by simp [found])
    have doomed := serial.doomed strung inside works fun _ => came.ends serial
    intro link found
    refine ⟨(doomed link found).1, performed.looks (inside link found) (doomed link found).1, ?_⟩
    by_cases settled : (world.outcome? first.number).isSome
    · have unbegun (link : Link) (found : link ∈ later) := (doomed link found).1
      rcases serial.reached strung inside unbegun settled link found with ended | ⟨active, among, rest⟩
      · obtain ⟨outcome, ended⟩ := Option.isSome_iff_exists.1 ended
        rw [ended, (doomed link found).2 outcome ended]
        exact .inl rfl
      · exact .inr ⟨active, by simp [among], rest⟩
    · have unsettled := Option.not_isSome_iff_eq_none.1 settled
      exact .inr ⟨first, by simp, Nat.le_of_lt (serial.later strung inside link found), unsettled,
        came.queued serial unsettled⟩
  case stays =>
    intro link found fault ended
    rcases performed.source strung inside link found ended with here | ⟨number, rfl, failed⟩
    · exact here
    · rcases opening with none | ⟨stand, member, same, idle⟩
      · cases none
      · cases same
        cases serial.ok_of_idle (by rw [all]; simp [member]) idle failed
  case begins =>
    intro first later split settled
    rw [split] at strung works all
    cases strung
    exact serial.begins all (works first (by simp)) opening settled

end Segments

/-- Adds a task that raises between two others, recovers, and adds one more. -/
def addAround : Program Value := do
  Recorder.call .start
  let _ ← Program.add "before" (pure .null)
  let _ ← Program.add "raises" (Program.throw .resultNotSet)
  let _ ← Program.add "after" (pure .null)
  Recorder.call .recover
  let _ ← Program.add "recovered" (pure .null)
  return .null

theorem addAround_mute : addAround.Obeys mute := by
  have adds (name : String) {body : Program Value} (obeys : body.Obeys mute) :
      (Program.add name body).Obeys mute :=
    .addFor (by simp [mute]) fun _ => obeys.toProcess
  have calls (call : RecorderCall) : (Recorder.call call).Obeys mute :=
    .bind (.ask (by simp [mute])) fun _ => .ofExcept _
  refine .bind (calls _) fun _ => .bind (adds _ (.pure _)) fun _ => ?_
  refine .bind (adds _ (.throw _)) fun _ => .bind (adds _ (.pure _)) fun _ => ?_
  exact .bind (calls _) fun _ => .bind (adds _ (.pure _)) fun _ => .pure _

/-- A loop in which the tasks are about to be added. -/
def addingWorld : World :=
  { World.initial ⟨0, none⟩ with
    looping := true
    current := some (.caller, addAround.toProcess) }

theorem failure_poisons_segment_addAround : ∃ before during after world,
    Run quietly (World.initial ⟨0, none⟩) (before ++ during ++ after) world ∧
    History.Segment before during ∧ Contained before during (before ++ during ++ after) world ∧
    (∃ first ∈ during.links,
      History.Came (before ++ during ++ after) world first (.error (.fault .resultNotSet))) ∧
    world.recorder.trace =
      ["before", "raises", "error: " ++ Fault.resultNotSet.message, "recovered"] := by
  have earlier : Run quietly (World.initial ⟨0, none⟩) [] addingWorld := by
    have looping : Run quietly (World.initial ⟨0, none⟩) []
        { World.initial ⟨0, none⟩ with looping := true } := Run.refl.between (.outside (.alters rfl))
    exact looping.between (.outside (.enters addAround_mute.toProcess rfl))
  let played := World.play 60 addingWorld
  have run : Run quietly (World.initial ⟨0, none⟩)
      (played.1.take 1 ++ (played.1.drop 1).take 3 ++ (played.1.drop 1).drop 3) played.2 := by
    rw [List.append_assoc, List.take_append_drop, List.take_append_drop]
    exact earlier.trans (Run.play 60 addingWorld)
  have segment : History.Segment (played.1.take 1) ((played.1.drop 1).take 3) :=
    ⟨by decide +kernel, by decide +kernel⟩
  have contained := failure_poisons_segment run segment
  have added : ∃ link ∈ History.links ((played.1.drop 1).take 3), link.number = 1 := by
    decide +kernel
  obtain ⟨link, found, number⟩ := added
  have ended : played.2.outcome? 1 = some (.error (.fault .resultNotSet)) := by
    rfl
  obtain ⟨first, found, _, came⟩ := contained.stays link found _ (number ▸ ended)
  exact ⟨_, _, _, _, run, segment, contained, ⟨first, found, came⟩, by decide +kernel⟩

end FeatureRunner
