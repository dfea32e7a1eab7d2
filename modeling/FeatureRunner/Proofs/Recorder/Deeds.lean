import FeatureRunner.Proofs.Recorder.Trace
import FeatureRunner.Proofs.World.Outside
import FeatureRunner.Proofs.World.Triple

/-!
What tasks have done. A process performs a list of acts if they lead from it to another process,
whatever it is answered and however long it waits in between. What a task of the chain has done, as
its history tells, it has performed: before it opens it only asks how the task before it has ended,
and then it performs its body and reports the outcome.
-/

namespace FeatureRunner
open FeatureRunner.World

instance : DecidablePred Act.Waits
  | .await _ | .join _ | .wait _ | .yield => isTrue trivial
  | .ask _ | .call .. | .leave .. | .add .. => isFalse id

/-- A call comes back with a failure. -/
def Act.Fails : Act → Prop
  | .leave _ (.error _) => True
  | _ => False

instance : DecidablePred Act.Fails := fun act => by unfold Act.Fails; split <;> infer_instance

/-- A process has become another by what it did. Waiting is not told. -/
inductive Process.Performs (first : Process) : List Act → Process → Prop
  | refl : Performs first [] first
  | acts {deeds : List Act} {before after : Process} {act : Act}
      (performs : Performs first deeds before) (moves : Next mute act before after)
      (active : ¬act.Waits) : Performs first (deeds ++ [act]) after
  | waits {deeds : List Act} {before after : Process} {act : Act}
      (performs : Performs first deeds before) (moves : Next mute act before after)
      (waits : act.Waits) : Performs first deeds after

namespace Process.Performs

variable {first middle last : Process} {deeds deeds' : List Act}

theorem trans (performs : first.Performs deeds middle) (further : middle.Performs deeds' last) :
    first.Performs (deeds ++ deeds') last := by
  induction further with
  | refl => simpa using performs
  | acts _ moves active ih =>
    rw [← List.append_assoc]
    exact ih.acts moves active
  | waits _ moves waits ih => exact ih.waits moves waits

/-- What is performed begins with what the process does first. -/
theorem head (performs : first.Performs deeds last) : deeds = [] ∧ last = first ∨
    ∃ act after rest, Next mute act first after ∧ after.Performs rest last ∧
      deeds = if act.Waits then rest else act :: rest := by
  induction performs with
  | refl => exact .inl ⟨rfl, rfl⟩
  | acts _ moves active ih =>
    rcases ih with ⟨rfl, rfl⟩ | ⟨act, after, rest, begins, further, rfl⟩
    · exact .inr ⟨_, _, [], moves, .refl, by simp [active]⟩
    · refine .inr ⟨act, after, _, begins, further.acts moves active, ?_⟩
      split <;> rfl
  | waits _ moves waits ih =>
    rcases ih with ⟨rfl, rfl⟩ | ⟨act, after, rest, begins, further, rfl⟩
    · exact .inr ⟨_, _, [], moves, .refl, by simp [waits]⟩
    · exact .inr ⟨act, after, rest, begins, further.waits moves waits, rfl⟩

theorem of_done {outcome : Outcome} (performs : (Process.done outcome).Performs deeds last) :
    deeds = [] ∧ last = .done outcome := by
  rcases performs.head with same | ⟨_, _, _, moves, _⟩
  · exact same
  · cases moves

theorem of_ask {request : Request} {branch : request.Answer → Process}
    (performs : (Process.ask request branch).Performs deeds last) :
    deeds = [] ∧ last = .ask request branch ∨ ∃ answer rest, request.Fair answer ∧
      deeds = .ask request :: rest ∧ (branch answer).Performs rest last := by
  rcases performs.head with same | ⟨_, _, rest, moves, further, rfl⟩
  · exact .inl same
  · cases moves with
    | ask fair => exact .inr ⟨_, rest, fair, rfl, further⟩

theorem of_join {task : Nat} {rest : Process}
    (performs : (Process.join task rest).Performs deeds last) :
    deeds = [] ∧ last = .join task rest ∨ rest.Performs deeds last := by
  rcases performs.head with same | ⟨_, _, _, moves, further, rfl⟩
  · exact .inl same
  · cases moves with
    | join => exact .inr further

/-- What a process does with what follows it. -/
theorem of_andThen {process : Process} {next : Outcome → Process}
    (performs : (process.andThen next).Performs deeds last) :
    (∃ rest, process.Performs deeds rest ∧ last = rest.andThen next) ∨
      ∃ outcome deeds' deeds'', process.Performs deeds' (.done outcome) ∧
        (next outcome).Performs deeds'' last ∧ deeds = deeds' ++ deeds'' := by
  induction performs with
  | refl => exact .inl ⟨process, .refl, rfl⟩
  | acts _ moves active ih =>
    rcases ih with ⟨rest, performs, rfl⟩ | ⟨outcome, deeds', deeds'', ended, further, rfl⟩
    · rcases moves.of_andThen with ⟨outcome, rfl, ended⟩ | ⟨rest', goes, rfl⟩
      · exact .inr ⟨outcome, _, [_], performs, .acts .refl ended active, rfl⟩
      · exact .inl ⟨rest', performs.acts goes active, rfl⟩
    · exact .inr ⟨outcome, deeds', _, ended, further.acts moves active, by simp⟩
  | waits _ moves waits ih =>
    rcases ih with ⟨rest, performs, rfl⟩ | ⟨outcome, deeds', deeds'', ended, further, rfl⟩
    · rcases moves.of_andThen with ⟨outcome, rfl, ended⟩ | ⟨rest', goes, rfl⟩
      · exact .inr ⟨outcome, _, [], performs, .waits .refl ended waits, by simp⟩
      · exact .inl ⟨rest', performs.waits goes waits, rfl⟩
    · exact .inr ⟨outcome, deeds', deeds'', ended, further.waits moves waits, rfl⟩

theorem passes {world : World} {after : Process} (performs : first.Performs deeds middle)
    (passes : middle.Passes world after) (uncancelled : world.Uncancelled) :
    first.Performs deeds after := by
  cases passes with
  | refl => exact performs
  | await ended => exact performs.waits (.await (uncancelled.plain ended)) trivial
  | awaitNone beyond => exact performs.waits (.await (uncancelled_fault _)) trivial
  | join ended => exact performs.waits .join trivial
  | wait => exact performs.waits .wait trivial
  | yield => exact performs.waits .yield trivial

end Process.Performs

/-! ## Deeds in a history -/

/-- What the next step does for an owner, other than to wait. -/
def World.deed? (owner : Owner) (world : World) : Option Act :=
  match world.act? with
  | some (actor, act) => if actor = owner ∧ ¬act.Waits then some act else none
  | none => none

namespace World.History

/-- What an owner has done. -/
def deeds (passed : History) (owner : Owner) : List Act :=
  passed.filterMap (World.deed? owner)

theorem deeds_append (passed later : History) (owner : Owner) :
    History.deeds (passed ++ later) owner = passed.deeds owner ++ later.deeds owner :=
  List.filterMap_append

theorem deeds_snoc (passed : History) (world : World) (owner : Owner) :
    History.deeds (passed ++ [world]) owner =
      passed.deeds owner ++ (world.deed? owner).toList := by
  rw [deeds_append]
  cases found : world.deed? owner <;> simp [deeds, found]

end World.History

section Deeds

variable {world next : World} {passed : History} {owner : Owner} {number : Nat}

theorem World.deed?_of_act? {act : Act} (acts : world.act? = some (owner, act)) :
    world.deed? owner = if act.Waits then none else some act := by
  by_cases waits : act.Waits <;> simp [World.deed?, acts, waits]

theorem World.act?_of_deed? {act : Act} (deed : world.deed? owner = some act) :
    world.act? = some (owner, act) := by
  unfold World.deed? at deed
  split at deed
  · rename_i actor found acts
    split at deed
    · rename_i mine
      cases deed
      rw [acts, mine.1]
    · cases deed
  · cases deed

/-- A deed was done in some world of the history. -/
theorem World.History.split_of_deeds {ahead rest : List Act} {act : Act}
    (did : passed.deeds owner = ahead ++ act :: rest) :
    ∃ early world late, passed = early ++ world :: late ∧ History.deeds early owner = ahead ∧
      world.act? = some (owner, act) ∧ History.deeds late owner = rest := by
  obtain ⟨early, onward, rfl, rfl, did'⟩ := List.filterMap_eq_append_iff.1 did
  obtain ⟨still, world, late, rfl, silent, deed, rfl⟩ := List.filterMap_eq_cons_iff.1 did'
  refine ⟨early ++ still, world, late, by simp, ?_, World.act?_of_deed? deed, rfl⟩
  rw [History.deeds_append]
  exact (congrArg _ (List.filterMap_eq_nil_iff.2 silent)).trans (List.append_nil _)

/-- A task that only waits, if anything, does nothing that is told. -/
theorem World.deed?_of_waits (waits : ∀ act, world.act? = some (owner, act) → act.Waits) :
    world.deed? owner = none := by
  unfold World.deed?
  split
  · rename_i actor act acts
    rw [if_neg]
    rintro ⟨rfl, active⟩
    exact active (waits act acts)
  · rfl

theorem World.deed?_of_length_le (wired : world.Wired world.busy)
    (beyond : world.tasks.length ≤ number) : world.deed? (.task number) = none := by
  refine World.deed?_of_waits fun act acts => ?_
  obtain ⟨process, running, _⟩ := running_of_act? acts
  exact absurd (process?_lt wired (process?_of_running running)) (Nat.not_lt_of_le beyond)

/-- What a process that is at hand does next it performs. -/
theorem Process.Performs.goes {first before after : Process}
    (performs : first.Performs (passed.deeds (.task number)) before)
    (goes : Process.Goes world next number before after) (uncancelled : world.Uncancelled)
    (uncancelled' : next.Uncancelled) :
    first.Performs (History.deeds (passed ++ [world]) (.task number)) after := by
  rw [History.deeds_snoc]
  cases goes with
  | passes waits passes =>
    rw [World.deed?_of_waits waits]
    simpa using performs.passes passes uncancelled'
  | asks acts =>
    rw [World.deed?_of_act? acts]
    exact performs.acts (.ask (uncancelled.fair _)) id
  | calls acts =>
    rw [World.deed?_of_act? acts]
    exact performs.acts .call id
  | leaves acts =>
    rw [World.deed?_of_act? acts]
    exact performs.acts .leave id
  | adds acts =>
    rw [World.deed?_of_act? acts]
    exact performs.acts (.add fun _ _ => trivial) id

/-! ## What links have done -/

/-- The process that a link begins with. -/
def Link.process (link : Link) : Process :=
  match link.work with
  | some (name, body) =>
    (Recorder.task link.session link.previous name (.ofProcess body)).toProcess
  | none => (Recorder.abandoned (link.previous.getD 0)).toProcess

theorem World.Evolves.begins {process : Process} (wired : world.Wired world.busy)
    (evolves : world.Evolves next (.task world.tasks.length) process) :
    ∃ new, world.link? = some new ∧ process = new.process := by
  have old {before : Process} (left : world.process? (.task world.tasks.length) = some before) :
      False := Nat.lt_irrefl _ (process?_lt wired left)
  cases evolves with
  | passes left => exact (old left).elim
  | asks running => exact (old (process?_of_running running)).elim
  | calls running => exact (old (process?_of_running running)).elim
  | leaves running => exact (old (process?_of_running running)).elim
  | adds running => exact (old (process?_of_running running)).elim
  | @added owner role name body acts looping =>
    exact ⟨⟨world.tasks.length, world.recorder.session, world.recorder.tail, some (name, body)⟩,
      by simp [World.link?, acts, looping], rfl⟩
  | stands acts tail unsettled looping =>
    exact ⟨⟨world.tasks.length, world.recorder.session, some _, none⟩,
      by simp [World.link?, acts, tail, unsettled, looping], rfl⟩
  | told caller => cases caller

/-- A link is made of what is added, or it stands for the chain before it. -/
theorem World.link?_cases {link : Link} (made : world.link? = some link) :
    (∃ owner role name body, world.act? = some (owner, .add role name body) ∧
      link.work = some (name, body)) ∨
    (∃ previous, link.previous = some previous) ∧ link.work = none := by
  unfold World.link? at made
  split at made
  · rename_i owner role name body acts
    split at made
    · cases made
      exact .inl ⟨owner, role, name, body, acts, rfl⟩
    · cases made
  · split at made
    · split at made
      · cases made
      · cases made
        exact .inr ⟨⟨_, rfl⟩, rfl⟩
    · cases made
  · cases made

/-- In any run in which only mute processes come from outside. -/
def keeping : Setting where
  outside := quietly
  fair _ := True
  holds := Serial
  wired serial := serial.wired
  uncancelled serial := serial.uncancelled
  step serial _ moved := serial.step moved
  between serial between := serial.between between
  apart serial comes := comes.apart serial.wired

/-- Every link has performed what its history tells. -/
structure Performed (passed : History) (world : World) : Prop where
  serial : Serial passed world
  unborn : ∀ number, world.tasks.length ≤ number → passed.deeds (.task number) = []
  performs : ∀ link ∈ passed.links, ∀ process,
    world.process? (.task link.number) = some process →
      link.process.Performs (passed.deeds (.task link.number)) process

namespace Performed

theorem step (performed : Performed passed world) (moved : world.step? = some next) :
    Performed (passed ++ [world]) next := by
  have serial := performed.serial
  have serial' := serial.step moved
  have stepped := step?_stepped serial.wired moved
  have silent (number : Nat) (beyond : world.tasks.length ≤ number) :
      History.deeds (passed ++ [world]) (.task number) = [] := by
    rw [History.deeds_snoc, performed.unborn number beyond,
      World.deed?_of_length_le serial.wired beyond]
    rfl
  refine ⟨serial', fun number beyond => silent number (Nat.le_trans stepped.length beyond), ?_⟩
  intro link member after left
  rw [History.links_append, List.mem_append, Option.mem_toList] at member
  rcases member with old | made
  · have inside := serial.inside link old
    obtain ⟨before, left'⟩ := process?_isSome inside
    exact (performed.performs link old before left').goes
      ((stepped.evolves left).goes left' inside) serial.uncancelled serial'.uncancelled
  · have number := (Serial.number_of_link made).1
    rw [number] at left
    obtain ⟨new, made', rfl⟩ := (stepped.evolves left).begins serial.wired
    cases Option.some.inj (made.symm.trans made')
    rw [silent _ (Nat.le_of_eq number.symm)]
    exact .refl

theorem between (performed : Performed passed world) (between : world.Between quietly next) :
    Performed passed next := by
  have serial := performed.serial
  have serial' := serial.between between
  refine ⟨serial', fun number beyond =>
    performed.unborn number (Nat.le_trans between.length beyond), ?_⟩
  intro link member after left
  obtain ⟨before, left'⟩ := process?_isSome (serial.inside link member)
  obtain ⟨other, known, passes⟩ := keeping.passes_of_between serial left' between
  cases Option.some.inj (left.symm.trans known)
  exact (performed.performs link member before left').passes passes serial'.uncancelled

theorem initial (clock : Calendar.Moment) : Performed [] (World.initial clock) :=
  ⟨.initial clock, fun _ _ => rfl, by simp [History.links]⟩

theorem of_run {clock : Calendar.Moment} (run : Run quietly (World.initial clock) passed world) :
    Performed passed world := by
  induction run with
  | refl => exact initial clock
  | step _ moved ih => exact ih.step moved
  | between _ between ih => exact ih.between between

end Performed

/-- What a task does from a world on, it performs. -/
theorem World.Run.performs {clock : Calendar.Moment} {early late : History} {middle : World}
    {first : Process} (earlier : Run quietly (World.initial clock) early middle)
    (run : Run quietly middle late world) (left : middle.process? (.task number) = some first) :
    ∃ last, world.process? (.task number) = some last ∧
      first.Performs (late.deeds (.task number)) last := by
  induction run with
  | refl => exact ⟨first, left, .refl⟩
  | step run moved ih =>
    obtain ⟨before, left, performs⟩ := ih
    have serial := Serial.of_run (earlier.trans run)
    have stepped := step?_stepped serial.wired moved
    have inside := process?_lt serial.wired left
    obtain ⟨after, left'⟩ := process?_isSome (Nat.lt_of_lt_of_le inside stepped.length)
    exact ⟨after, left', performs.goes ((stepped.evolves left').goes left inside) serial.uncancelled
      (serial.step moved).uncancelled⟩
  | between run between ih =>
    obtain ⟨before, left, performs⟩ := ih
    have serial := Serial.of_run (earlier.trans run)
    obtain ⟨after, left', passes⟩ := keeping.passes_of_between serial left between
    exact ⟨after, left', performs.passes passes (serial.between between).uncancelled⟩

/-- What is added later has later numbers. -/
theorem World.Run.links_beyond {clock : Calendar.Moment} {early late : History} {middle : World}
    (earlier : Run quietly (World.initial clock) early middle) (run : Run quietly middle late world) :
    middle.tasks.length ≤ world.tasks.length ∧
      ∀ link ∈ late.links, middle.tasks.length ≤ link.number := by
  induction run with
  | refl => exact ⟨Nat.le_refl _, by simp [History.links]⟩
  | step run moved ih =>
    obtain ⟨length, beyond⟩ := ih
    have wired := (Serial.of_run (earlier.trans run)).wired
    refine ⟨Nat.le_trans length (step?_stepped wired moved).length, fun link member => ?_⟩
    rw [History.links_append, List.mem_append, Option.mem_toList] at member
    rcases member with old | made
    · exact beyond link old
    · rw [(Serial.number_of_link made).1]
      exact length
  | between _ between ih => exact ⟨Nat.le_trans ih.1 between.length, ih.2⟩

end Deeds

/-! ## The course of a link -/

/-- Looks how a task has ended, and changes nothing. -/
def Act.Looks : Act → Prop
  | .ask (.outcome _) => True
  | _ => False

/-- The line that an act writes. -/
def Act.line? : Act → Option String
  | .ask request => request.line?
  | _ => none

theorem Act.line?_of_looks {acts : List Act} (looks : ∀ act ∈ acts, act.Looks) :
    acts.filterMap Act.line? = [] := by
  refine List.filterMap_eq_nil_iff.2 fun act member => ?_
  have looks := looks act member
  unfold Act.Looks at looks
  split at looks
  · rfl
  · exact looks.elim

theorem World.History.said_eq (passed : History) (number : Nat) :
    passed.said number = (passed.deeds (.task number)).filterMap Act.line? := by
  simp only [History.said, History.deeds, List.filterMap_filterMap]
  refine List.filterMap_congr fun world _ => ?_
  unfold World.writes? World.deed?
  rcases world.act? with _ | ⟨owner, act⟩
  · rfl
  · by_cases mine : owner = .task number
    · subst mine
      cases act <;> simp [Act.Waits, Act.line?]
    · cases owner <;> cases act <;> simp_all

namespace Process.Performs

variable {deeds : List Act} {last : Process} {task session : Nat}

theorem of_checking {next : Outcome → Process}
    (performs : (Recorder.checking task next).Performs deeds last) :
    deeds = [] ∧ last = Recorder.checking task next ∨
      ∃ outcome rest, deeds = .ask (.outcome task) :: rest ∧ (next outcome).Performs rest last := by
  rcases performs.of_ask with same | ⟨answer, rest, _, told, further⟩
  · exact .inl same
  · cases answer with
    | none => exact .inr ⟨_, rest, told, further⟩
    | some outcome => exact .inr ⟨outcome, rest, told, further⟩

theorem of_waiting {next : Outcome → Process}
    (performs : (Recorder.waiting task next).Performs deeds last) :
    (∀ act ∈ deeds, act.Looks) ∨ ∃ outcome asked rest, deeds = asked ++ rest ∧
      (∀ act ∈ asked, act.Looks) ∧ (next outcome).Performs rest last := by
  rcases performs.of_ask with ⟨rfl, _⟩ | ⟨answer, rest, _, rfl, further⟩
  · exact .inl (by simp)
  · cases answer with
    | some outcome => exact .inr ⟨outcome, [_], rest, rfl, by simp [Act.Looks], further⟩
    | none =>
      rcases further.of_join with ⟨rfl, _⟩ | further
      · exact .inl (by simp [Act.Looks])
      · rcases further.of_checking with ⟨rfl, _⟩ | ⟨outcome, rest, rfl, ended⟩
        · exact .inl (by simp [Act.Looks])
        · exact .inr ⟨outcome, [_, _], rest, rfl, by simp [Act.Looks], ended⟩

end Process.Performs

namespace World.History

/-- The body of a link has come to an outcome, which the link reports. -/
inductive Came (passed : History) (world : World) (link : Link) (outcome : Outcome) : Prop
  | of {name : String} {body left : Process} {asked deeds told : List Act}
      (work : link.work = some (name, body)) (looks : ∀ act ∈ asked, act.Looks)
      (did : passed.deeds (.task link.number) =
        asked ++ .ask (.record link.session name) :: (deeds ++ told))
      (performs : body.Performs deeds (.done outcome))
      (reports : (Recorder.report link.session outcome).Performs told left)
      (left : world.process? (.task link.number) = some left)

end World.History

/-- How far a link has come. -/
inductive Link.Course (link : Link) : List Act → Process → Prop
  | looks {asked : List Act} {process : Process} (looks : ∀ act ∈ asked, act.Looks) :
      Course link asked process
  | works {name : String} {body rest : Process} {asked deeds : List Act}
      (work : link.work = some (name, body)) (looks : ∀ act ∈ asked, act.Looks)
      (performs : body.Performs deeds rest) :
      Course link (asked ++ .ask (.record link.session name) :: deeds)
        (rest.andThen (Recorder.report link.session))
  | came {name : String} {body left : Process} {asked deeds told : List Act} {outcome : Outcome}
      (work : link.work = some (name, body)) (looks : ∀ act ∈ asked, act.Looks)
      (performs : body.Performs deeds (.done outcome))
      (reports : (Recorder.report link.session outcome).Performs told left) :
      Course link (asked ++ .ask (.record link.session name) :: (deeds ++ told)) left

namespace Link

variable {link : Link} {deeds : List Act} {last : Process}

theorem course_of_opening {name : String} {body : Process} {asked : List Act}
    (work : link.work = some (name, body)) (looks : ∀ act ∈ asked, act.Looks)
    (performs : (Recorder.opening link.session name body).Performs deeds last) :
    link.Course (asked ++ deeds) last := by
  rcases performs.of_ask with ⟨rfl, _⟩ | ⟨_, rest, _, rfl, further⟩
  · exact .looks (by simpa using looks)
  · rcases further.of_andThen with ⟨rest', ahead, rfl⟩ | ⟨outcome, deeds', told, ended, reports, rfl⟩
    · exact .works work looks ahead
    · exact .came work looks ended reports

theorem course (performs : link.process.Performs deeds last) : link.Course deeds last := by
  obtain ⟨number, session, previous, work⟩ := link
  cases work with
  | none =>
    refine .looks ?_
    rcases Process.Performs.of_join performs with ⟨rfl, _⟩ | performs
    · simp
    · simp [performs.of_done.1]
  | some named =>
    obtain ⟨name, body⟩ := named
    simp only [Link.process, Recorder.task_toProcess] at performs
    cases previous with
    | none => exact course_of_opening rfl (List.forall_mem_nil _) performs
    | some previous =>
      rcases performs.of_waiting with looks | ⟨outcome, asked, rest, rfl, looks, further⟩
      · exact .looks looks
      · cases outcome with
        | ok value => exact course_of_opening rfl looks further
        | error failure =>
          refine .looks ?_
          simpa [further.of_done.1] using looks

theorem report_performs {session : Nat} {outcome outcome' : Outcome} {told : List Act}
    (reports : (Recorder.report session outcome).Performs told (.done outcome')) :
    outcome' = outcome := by
  rcases outcome with (fault | _) | value
  · rcases reports.of_ask with ⟨_, same⟩ | ⟨_, rest, _, _, further⟩
    · cases same
    · exact Process.done.inj further.of_done.2
  · exact Process.done.inj reports.of_done.2
  · exact Process.done.inj reports.of_done.2

end Link

namespace Performed

variable {passed : History} {world : World} {link : Link}

theorem course (performed : Performed passed world) (member : link ∈ passed.links)
    {process : Process} (left : world.process? (.task link.number) = some process) :
    link.Course (passed.deeds (.task link.number)) process :=
  Link.course (performed.performs link member process left)

/-- A link that has not begun has done nothing but to look. -/
theorem looks (performed : Performed passed world) (member : link ∈ passed.links)
    (unbegun : ¬passed.Begun link.number) : ∀ act ∈ passed.deeds (.task link.number), act.Looks := by
  obtain ⟨process, left⟩ := process?_isSome (performed.serial.inside link member)
  have course := performed.course member left
  have silent : passed.said link.number = [] := by simpa [History.Begun] using unbegun
  rw [History.said_eq] at silent
  generalize passed.deeds (.task link.number) = deeds at course silent ⊢
  cases course with
  | looks looks => exact looks
  | works => simp [Act.line?, Request.line?] at silent
  | came => simp [Act.line?, Request.line?] at silent

/-- A link that has begun ends as its body has come to. -/
theorem came (performed : Performed passed world) (member : link ∈ passed.links)
    (begun : passed.Begun link.number) {outcome : Outcome}
    (left : world.process? (.task link.number) = some (.done outcome)) :
    passed.Came world link outcome := by
  have course := performed.course member left
  have said := History.said_eq passed link.number
  generalize did : passed.deeds (.task link.number) = deeds at course said
  generalize ending : Process.done outcome = process at course
  cases course with
  | looks looks => exact absurd (said.trans (Act.line?_of_looks looks)) begun
  | @works name body rest asked deeds work looks performs =>
    cases rest with
    | done outcome' =>
      have reports : (Recorder.report link.session outcome').Performs [] (.done outcome) := by
        rw [show Recorder.report link.session outcome' = .done outcome from ending.symm]
        exact .refl
      have same := Link.report_performs reports
      subst same
      rw [← List.append_nil deeds] at did
      exact .of work looks did performs reports left
    | _ => cases ending
  | came work looks performs reports =>
    subst ending
    have same := Link.report_performs reports
    subst same
    exact .of work looks did performs reports left

end Performed

end FeatureRunner
