import FeatureRunner.Proofs.World.Run

/-!
A program logic for one task among all others. Assertions speak of the history of a run and of its
present world. A triple says of a program of the task: if the first assertion holds while the task
is at the program, every run from there is as wanted, as far as the runs from the ends of the
program are, under what the second assertion says of them.

A run may be interrupted at every node, so each rule asks that its assertion is kept while others
move.
-/

namespace FeatureRunner

/-- How a process of a task goes on in a step, seen from the task. -/
inductive Process.Goes (world next : World) (task : Nat) : Process → Process → Prop
  | passes {before after : Process}
      (waits : ∀ act, world.act? = some (.task task, act) → act.Waits)
      (passes : before.Passes next after) : Goes world next task before after
  | asks {request : Request} {branch : request.Answer → Process}
      (acts : world.act? = some (.task task, .ask request)) :
      Goes world next task (.ask request branch) (branch (world.respond request).1)
  | calls {role : Role} {callable : Callable} {args : List Value} {branch : Outcome → Process}
      (acts : world.act? = some (.task task, .call role callable args)) :
      Goes world next task (.call role callable args branch)
        ((callable.process role args).andThen branch)
  | leaves {role : Role} {outcome : Outcome} {rest : Process}
      (acts : world.act? = some (.task task, .leave role outcome)) :
      Goes world next task (.leave role outcome rest) rest
  | adds {role : Role} {name : String} {body : Process} {branch : Except Fault Nat → Process}
      (acts : world.act? = some (.task task, .add role name body)) :
      Goes world next task (.add role name body branch) (branch (world.addTask name body).1)

theorem World.Evolves.goes {world next : World} {task : Nat} {before after : Process}
    (evolves : world.Evolves next (.task task) after)
    (left : world.process? (.task task) = some before) (old : task < world.tasks.length) :
    Process.Goes world next task before after := by
  have same {process : Process} (running : world.current = some (.task task, process)) :
      before = process := Option.some.inj (left.symm.trans (process?_of_running running))
  cases evolves with
  | passes left' passes waits =>
    cases Option.some.inj (left.symm.trans left')
    exact .passes waits passes
  | asks running => cases same running; exact .asks (act?_of_running running rfl)
  | calls running => cases same running; exact .calls (act?_of_running running rfl)
  | leaves running => cases same running; exact .leaves (act?_of_running running rfl)
  | adds running => cases same running; exact .adds (act?_of_running running rfl)
  | added adds looping new => exact absurd (Owner.task.inj new) (Nat.ne_of_lt old)
  | stands recovers tail unsettled looping new =>
    exact absurd (Owner.task.inj new) (Nat.ne_of_lt old)
  | told caller idle => cases caller

/-- Before a stop there is something to do that the law allows. -/
theorem Process.Keeps.exists_act {law : Law} {stops : Process → Prop} {process : Process}
    (keeps : process.Keeps law stops) (active : ¬stops process) :
    ∃ act, process.act? = some act ∧ law.allows act := by
  cases keeps with
  | stop stopped => exact absurd stopped active
  | ask allowed => exact ⟨_, rfl, allowed⟩
  | call allowed => exact ⟨_, rfl, allowed⟩
  | leave allowed => exact ⟨_, rfl, allowed⟩
  | add allowed => exact ⟨_, rfl, allowed⟩
  | await allowed => exact ⟨_, rfl, allowed⟩
  | join allowed => exact ⟨_, rfl, allowed⟩
  | wait allowed => exact ⟨_, rfl, allowed⟩
  | yield allowed => exact ⟨_, rfl, allowed⟩

namespace World

abbrev Assertion := History → World → Prop

/-- What is taken for granted: what may come from outside, what is known of each step, and what
holds all along. -/
structure Setting where
  outside : World → World → Prop
  fair : World → Prop
  holds : Assertion
  wired : ∀ {passed world}, holds passed world → world.Wired world.busy
  uncancelled : ∀ {passed world}, holds passed world → world.Uncancelled
  step : ∀ {passed world next}, holds passed world → fair world → world.step? = some next →
    holds (passed ++ [world]) next
  between : ∀ {passed world next}, holds passed world → world.Between outside next →
    holds passed next
  /-- Nothing from outside meddles with tasks. -/
  apart : ∀ {passed world next}, holds passed world → outside world next →
    (world.current ≠ none → next.current = world.current) ∧
    ∀ number, number < world.tasks.length →
      next.process? (.task number) = world.process? (.task number) ∧
      next.outcome? number = world.outcome? number

namespace Setting

variable (setting : Setting)

/-- A run goes on. -/
inductive Course (passed : History) (world : World) : History → World → Prop
  | refl : Course passed world passed world
  | step {later : History} {last next : World} (course : Course passed world later last)
      (fair : setting.fair last) (moved : last.step? = some next) :
      Course passed world (later ++ [last]) next
  | between {later : History} {last next : World} (course : Course passed world later last)
      (between : last.Between setting.outside next) : Course passed world later next

variable {setting}

theorem Course.trans {passed later latest : History} {world mid last : World}
    (course : setting.Course passed world later mid)
    (further : setting.Course later mid latest last) :
    setting.Course passed world latest last := by
  induction further with
  | refl => exact course
  | step _ fair moved ih => exact ih.step fair moved
  | between _ between ih => exact ih.between between

theorem Course.holds {passed later : History} {world last : World}
    (course : setting.Course passed world later last) (holds : setting.holds passed world) :
    setting.holds later last := by
  induction course with
  | refl => exact holds
  | step _ fair moved ih => exact setting.step ih fair moved
  | between _ between ih => exact setting.between ih between

/-- A run whose steps are fair is a course, whatever was before it. -/
theorem Course.of_run {start world : World} {passed : History} (prior : History)
    (run : Run setting.outside start passed world) (fair : ∀ past ∈ passed, setting.fair past) :
    setting.Course prior start (prior ++ passed) world := by
  induction run with
  | refl => simpa using .refl
  | step _ moved ih =>
    rw [← List.append_assoc]
    refine (ih fun past member => fair past (List.mem_append_left _ member)).step ?_ moved
    exact fair _ (by simp)
  | between _ between ih => exact (ih fair).between between

variable (setting) (task : Nat) (wanted : Outcome → Assertion)

/-- When the task has ended, it is as wanted. -/
def Safe (passed : History) (world : World) : Prop :=
  ∀ later last, setting.Course passed world later last →
    ∀ outcome, last.outcome? task = some outcome → wanted outcome later last

/-- An assertion outlasts what others do, and what the task does if it is one of some acts. -/
structure Lasts (acts : Act → Prop) (assertion : Assertion) : Prop where
  step : ∀ {passed world next}, setting.holds passed world → assertion passed world →
    setting.fair world → world.step? = some next → setting.holds (passed ++ [world]) next →
    (∀ act, world.act? = some (.task task, act) → acts act) → assertion (passed ++ [world]) next
  between : ∀ {passed world next}, setting.holds passed world → assertion passed world →
    world.Between setting.outside next → setting.holds passed next → assertion passed next

/-- An assertion outlasts what others do, and what the task does before its end if it is one of some
acts. -/
structure Spans (acts : Act → Prop) (assertion : Assertion) : Prop where
  step : ∀ {passed world next}, setting.holds passed world → assertion passed world →
    setting.fair world → world.step? = some next → setting.holds (passed ++ [world]) next →
    (∀ act, world.act? = some (.task task, act) → acts act) →
    (∀ outcome, world.current ≠ some (.task task, .done outcome)) →
    assertion (passed ++ [world]) next
  between : ∀ {passed world next}, setting.holds passed world → assertion passed world →
    world.Between setting.outside next → setting.holds passed next → assertion passed next

/-- An assertion is kept while the task is at a process and does not go on. -/
structure Kept (assertion : Assertion) (process : Process) : Prop where
  step : ∀ {passed world next}, setting.holds passed world → assertion passed world →
    world.process? (.task task) = some process → setting.fair world → world.step? = some next →
    setting.holds (passed ++ [world]) next →
    (∀ act, world.act? = some (.task task, act) → act.Waits ∧ process.act? = some act) →
    assertion (passed ++ [world]) next
  between : ∀ {passed world next}, setting.holds passed world → assertion passed world →
    world.Between setting.outside next → setting.holds passed next → assertion passed next

/-- While the task is being run, no other moves. -/
def Held (assertion : Assertion) : Assertion := fun passed world =>
  world.busy = some task ∧ assertion passed world

/-- A triple: from a program, everything is as wanted if it is from its ends. -/
def Meets {α : Type} (before : Assertion) (program : Program α)
    (after : Except Failure α → Assertion) : Prop :=
  ∀ ⦃next passed world⦄, setting.holds passed world → before passed world →
    world.process? (.task task) = some (program next) →
    (∀ ⦃result later last⦄, setting.Course passed world later last → after result later last →
      last.process? (.task task) = some (next result) → setting.Safe task wanted later last) →
    setting.Safe task wanted passed world

/-- What the task does under a law is in keeping with what the law takes for granted. -/
structure Suits (law : Law) : Prop where
  closed : law.Closed
  waits : ∀ act, act.Waits → law.assumes act
  assumes : ∀ {passed world act}, setting.holds passed world → setting.fair world →
    world.act? = some (.task task, act) → law.assumes act
  grants : ∀ {passed world request}, setting.holds passed world → setting.fair world →
    world.act? = some (.task task, .ask request) → law.grants request (world.respond request).1
  numbers : ∀ {passed world}, setting.holds passed world → task < world.tasks.length →
    law.numbers world.tasks.length

/-! ## Safety at a process -/

variable {setting} {task : Nat} {wanted : Outcome → Assertion} {passed : History} {world : World}

theorem Safe.of_until (assertion : Assertion) (holds : setting.holds passed world)
    (start : assertion passed world)
    (active : ∀ {passed world}, setting.holds passed world → assertion passed world →
      ∃ process act, world.process? (.task task) = some process ∧ process.act? = some act)
    (step : ∀ {later last next}, setting.Course passed world (later ++ [last]) next →
      setting.holds later last → assertion later last → setting.fair last →
      last.step? = some next → setting.holds (later ++ [last]) next →
      assertion (later ++ [last]) next ∨ setting.Safe task wanted (later ++ [last]) next)
    (between : ∀ {later last next}, setting.Course passed world later next →
      setting.holds later last → assertion later last → last.Between setting.outside next →
      setting.holds later next → assertion later next ∨ setting.Safe task wanted later next) :
    setting.Safe task wanted passed world := by
  intro later last course outcome ended
  have reached : assertion later last ∨ ∃ mid between, setting.Safe task wanted mid between ∧
      setting.Course mid between later last := by
    clear ended
    induction course with
    | refl => exact .inl start
    | @step _ last next course fair moved ih =>
      rcases ih with here | ⟨mid, between, safe, further⟩
      · have held := course.holds holds
        rcases step (course.step fair moved) held here fair moved (setting.step held fair moved)
          with here | safe
        · exact .inl here
        · exact .inr ⟨_, _, safe, .refl⟩
      · exact .inr ⟨mid, between, safe, further.step fair moved⟩
    | @between _ last next course comes ih =>
      rcases ih with here | ⟨mid, between', safe, further⟩
      · have held := course.holds holds
        rcases between (course.between comes) held here comes (setting.between held comes)
          with here | safe
        · exact .inl here
        · exact .inr ⟨_, _, safe, .refl⟩
      · exact .inr ⟨mid, between', safe, further.between comes⟩
  rcases reached with here | ⟨mid, between, safe, further⟩
  · have held := course.holds holds
    obtain ⟨process, act, left, acts⟩ := active held here
    rw [process?_of_outcome (setting.wired held) ended] at left
    cases left
    cases acts
  · exact safe later last further outcome ended

/-- What is left to do of the task after a step or between steps. -/
theorem evolves_of_step {next : World} {process : Process} (holds : setting.holds passed world)
    (left : world.process? (.task task) = some process) (moved : world.step? = some next) :
    ∃ after, next.process? (.task task) = some after ∧
      world.Evolves next (.task task) after ∧ task < world.tasks.length := by
  have wired := setting.wired holds
  have stepped := step?_stepped wired moved
  have old := process?_lt wired left
  obtain ⟨after, left'⟩ := process?_isSome (Nat.lt_of_lt_of_le old stepped.length)
  exact ⟨after, left', stepped.evolves left', old⟩

theorem passes_of_between {next : World} {process : Process} (holds : setting.holds passed world)
    (left : world.process? (.task task) = some process)
    (between : world.Between setting.outside next) :
    ∃ after, next.process? (.task task) = some after ∧ process.Passes next after := by
  have wired := setting.wired holds
  have old := process?_lt wired left
  rcases between.calm_or with calm | comes
  · obtain ⟨after, left'⟩ := process?_isSome (calm.length ▸ old)
    obtain ⟨before, known, passes⟩ := calm.passes _ after left'
    cases Option.some.inj (left.symm.trans known)
    exact ⟨after, left', passes⟩
  · exact ⟨process, (((setting.apart holds comes).2 task old).1).trans left, .refl _⟩

theorem act?_ne_of_busy {act : Act} (apart : world.busy ≠ some task) :
    world.act? ≠ some (.task task, act) := by
  intro acts
  obtain ⟨process, running, _⟩ := running_of_act? acts
  exact apart (by simp [busy, running])

theorem running_of_busy {process : Process} (busy : world.busy = some task)
    (left : world.process? (.task task) = some process) :
    world.current = some (.task task, process) := by
  unfold World.busy at busy
  split at busy
  · rename_i number running current
    cases busy
    rw [process?_of_running current] at left
    rw [current, Option.some.inj left]
  · cases busy

theorem eq_of_passes {before after : Process} {act : Act} (passes : before.Passes world after)
    (acts : before.act? = some act) (active : ¬act.Waits) : after = before := by
  cases passes with
  | refl => rfl
  | _ =>
    cases acts
    exact absurd trivial active

/-- The task stays at a node that is not a wait, while it is not being run. -/
theorem process?_of_resting {next : World} {process : Process} {act : Act}
    (acts : process.act? = some act) (active : ¬act.Waits) (holds : setting.holds passed world)
    (left : world.process? (.task task) = some process) (resting : world.busy ≠ some task)
    (moved : world.step? = some next) : next.process? (.task task) = some process := by
  obtain ⟨after, left', evolves, old⟩ := evolves_of_step holds left moved
  have idle (act : Act) : world.act? ≠ some (.task task, act) := act?_ne_of_busy resting
  cases evolves.goes left old with
  | passes waits passes => rw [left', eq_of_passes passes acts active]
  | asks doing => exact absurd doing (idle _)
  | calls doing => exact absurd doing (idle _)
  | leaves doing => exact absurd doing (idle _)
  | adds doing => exact absurd doing (idle _)

/-- The task is at a node that is not a wait, until it does what the node does. -/
theorem Safe.of_node {assertion : Assertion} {process : Process} {act : Act}
    (acts : process.act? = some act) (active : ¬act.Waits)
    (kept : setting.Kept task assertion process)
    (mine : ∀ {later last next}, setting.Course passed world (later ++ [last]) next →
      setting.holds later last → assertion later last → setting.fair last →
      last.current = some (.task task, process) → last.step? = some next →
      next = { last with current := none }.runNode (.task task) process →
      setting.holds (later ++ [last]) next → setting.Safe task wanted (later ++ [last]) next)
    (holds : setting.holds passed world) (start : assertion passed world)
    (left : world.process? (.task task) = some process) :
    setting.Safe task wanted passed world := by
  refine Safe.of_until (fun passed world => assertion passed world ∧
    world.process? (.task task) = some process) holds ⟨start, left⟩
    (fun holds here => ⟨process, act, here.2, acts⟩) ?_ ?_
  · rintro passed world next course holds ⟨here, left⟩ fair moved holds'
    by_cases busy : world.busy = some task
    · have running := running_of_busy busy left
      have moved' := moved
      rw [step?_of_running running, Option.some.injEq] at moved'
      exact .inr (mine course holds here fair running moved moved'.symm holds')
    · exact .inl ⟨kept.step holds here left fair moved holds' fun act known =>
        absurd known (act?_ne_of_busy busy), process?_of_resting acts active holds left busy moved⟩
  · rintro passed world next _ holds ⟨here, left⟩ between holds'
    obtain ⟨after, left', passes⟩ := passes_of_between holds left between
    cases eq_of_passes passes acts active
    exact .inl ⟨kept.between holds here between holds', left'⟩

/-- A process is safe from its end, if what holds there is wanted and lasts. -/
theorem Safe.of_done {assertion : Assertion} {outcome : Outcome}
    (kept : setting.Kept task assertion (.done outcome))
    (fulfils : ∀ {passed world}, setting.holds passed world → assertion passed world →
      wanted outcome passed world)
    (holds : setting.holds passed world) (start : assertion passed world)
    (left : world.process? (.task task) = some (.done outcome)) :
    setting.Safe task wanted passed world := by
  intro later last course ending ended
  have reached : assertion later last ∧ last.process? (.task task) = some (.done outcome) := by
    clear ended
    induction course with
    | refl => exact ⟨start, left⟩
    | @step _ last next course fair moved ih =>
      obtain ⟨here, left⟩ := ih
      have held := course.holds holds
      obtain ⟨after, left', evolves, old⟩ := evolves_of_step held left moved
      cases evolves.goes left old with
      | passes waits passes =>
        cases passes
        refine ⟨kept.step held here left fair moved (setting.step held fair moved) ?_, left'⟩
        intro act acts
        obtain ⟨process, running, acts⟩ := running_of_act? acts
        rw [process?_of_running running] at left
        cases left
        cases acts
    | @between _ last next course comes ih =>
      obtain ⟨here, left⟩ := ih
      have held := course.holds holds
      obtain ⟨after, left', passes⟩ := passes_of_between held left comes
      cases passes
      exact ⟨kept.between held here comes (setting.between held comes), left'⟩
  obtain ⟨here, left'⟩ := reached
  have held := course.holds holds
  rw [process?_of_outcome (setting.wired held) ended] at left'
  cases left'
  exact fulfils held here

/-- A process keeps a law up to a stop, and an assertion outlasts whatever the law allows. -/
theorem Safe.of_keeps {law : Law} {stops : Process → Prop} {assertion : Assertion}
    {process : Process} (suits : setting.Suits task law)
    (lasts : setting.Lasts task law.allows assertion) (keeps : process.Keeps law stops)
    (further : ∀ {later last process}, setting.Course passed world later last →
      stops process → setting.holds later last → assertion later last →
      last.process? (.task task) = some process → setting.Safe task wanted later last)
    (holds : setting.holds passed world) (start : assertion passed world)
    (left : world.process? (.task task) = some process) :
    setting.Safe task wanted passed world := by
  by_cases stopped : stops process
  · exact further .refl stopped holds start left
  refine Safe.of_until (fun passed world => assertion passed world ∧ ∃ process,
    world.process? (.task task) = some process ∧ process.Keeps law stops ∧ ¬stops process) holds
    ⟨start, process, left, keeps, stopped⟩ ?_ ?_ ?_
  · rintro passed world holds ⟨here, process, left, keeps, active⟩
    obtain ⟨act, acts, _⟩ := keeps.exists_act active
    exact ⟨process, act, left, acts⟩
  · rintro passed world next course holds ⟨here, process, left, keeps, active⟩ fair moved holds'
    obtain ⟨after, left', evolves, old⟩ := evolves_of_step holds left moved
    have kept : after.Keeps law stops := by
      refine evolves.keeps (setting.uncancelled holds') suits.closed suits.waits
        (fun act acts => suits.assumes holds fair acts)
        (fun request acts => suits.grants holds fair acts)
        (fun _ _ _ _ _ => suits.numbers holds old)
        (fun _ _ caller => by cases caller) (fun same => Nat.ne_of_lt old (Owner.task.inj same))
        (fun other left' => Option.some.inj (left.symm.trans left') ▸ keeps) ?_
      intro other left' stopped
      cases Option.some.inj (left.symm.trans left')
      exact absurd stopped active
    have here := lasts.step holds here fair moved holds' fun act acts => by
      obtain ⟨other, running, acts⟩ := running_of_act? acts
      rw [process?_of_running running] at left
      cases left
      exact keeps.allowed active acts
    by_cases stopped : stops after
    · exact .inr (further course stopped holds' here left')
    · exact .inl ⟨here, after, left', kept, stopped⟩
  · rintro passed world next course holds ⟨here, process, left, keeps, active⟩ between holds'
    obtain ⟨after, left', passes⟩ := passes_of_between holds left between
    have kept := passes.keeps (setting.uncancelled holds') suits.closed suits.waits keeps
      fun stopped => absurd stopped active
    have here := lasts.between holds here between holds'
    by_cases stopped : stops after
    · exact .inr (further course stopped holds' here left')
    · exact .inl ⟨here, after, left', kept, stopped⟩

/-- The task waits for another to end. -/
theorem Safe.of_join {assertion : Assertion} {awaited : Nat} {rest : Process}
    (kept : setting.Kept task assertion (.join awaited rest))
    (further : ∀ {later last}, setting.Course passed world later last → setting.holds later last →
      assertion later last → (awaited < last.tasks.length → (last.outcome? awaited).isSome) →
      last.process? (.task task) = some rest → setting.Safe task wanted later last)
    (holds : setting.holds passed world) (start : assertion passed world)
    (left : world.process? (.task task) = some (.join awaited rest)) :
    setting.Safe task wanted passed world := by
  refine Safe.of_until (fun passed world => assertion passed world ∧
    world.process? (.task task) = some (.join awaited rest)) holds ⟨start, left⟩
    (fun holds here => ⟨_, _, here.2, rfl⟩) ?_ ?_
  · rintro passed world next course holds ⟨here, left⟩ fair moved holds'
    obtain ⟨after, left', evolves, old⟩ := evolves_of_step holds left moved
    cases evolves.goes left old with
    | passes waits passes =>
      have here := kept.step holds here left fair moved holds' fun act acts => by
        refine ⟨waits act acts, ?_⟩
        obtain ⟨other, running, acts⟩ := running_of_act? acts
        rw [process?_of_running running] at left
        cases left
        exact acts
      cases passes with
      | refl => exact .inl ⟨here, left'⟩
      | join ended => exact .inr (further course holds' here ended left')
  · rintro passed world next course holds ⟨here, left⟩ between holds'
    obtain ⟨after, left', passes⟩ := passes_of_between holds left between
    have here := kept.between holds here between holds'
    cases passes with
    | refl => exact .inl ⟨here, left'⟩
    | join ended => exact .inr (further course holds' here ended left')

/-! ## Assertions that last -/

variable {first second : Assertion} {acts acts' : Act → Prop}

theorem Lasts.mono (lasts : setting.Lasts task acts first) (fewer : ∀ act, acts' act → acts act) :
    setting.Lasts task acts' first where
  step holds here fair moved holds' mine :=
    lasts.step holds here fair moved holds' fun act known => fewer act (mine act known)
  between := lasts.between

theorem Lasts.and (lasts : setting.Lasts task acts first) (lasts' : setting.Lasts task acts second) :
    setting.Lasts task acts fun passed world => first passed world ∧ second passed world where
  step holds here fair moved holds' mine :=
    ⟨lasts.step holds here.1 fair moved holds' mine, lasts'.step holds here.2 fair moved holds' mine⟩
  between holds here between holds' :=
    ⟨lasts.between holds here.1 between holds', lasts'.between holds here.2 between holds'⟩

theorem Lasts.or (lasts : setting.Lasts task acts first) (lasts' : setting.Lasts task acts second) :
    setting.Lasts task acts fun passed world => first passed world ∨ second passed world where
  step holds here fair moved holds' mine :=
    here.imp (lasts.step holds · fair moved holds' mine) (lasts'.step holds · fair moved holds' mine)
  between holds here between holds' :=
    here.imp (lasts.between holds · between holds') (lasts'.between holds · between holds')

theorem Lasts.const (known : Prop) : setting.Lasts task acts fun _ _ => known where
  step _ here _ _ _ _ := here
  between _ here _ _ := here

/-- What outlasts everything holds as long as a run goes on. -/
theorem Course.lasts {later : History} {last : World}
    (course : setting.Course passed world later last) (lasts : setting.Lasts task (fun _ => True) first)
    (holds : setting.holds passed world) (here : first passed world) : first later last := by
  induction course with
  | refl => exact here
  | step course fair moved ih =>
    have held := course.holds holds
    exact lasts.step held ih fair moved (setting.step held fair moved) fun _ _ => trivial
  | between course comes ih =>
    have held := course.holds holds
    exact lasts.between held ih comes (setting.between held comes)

theorem Lasts.exists {ι : Type} {assertion : ι → Assertion}
    (lasts : ∀ known, setting.Lasts task acts (assertion known)) :
    setting.Lasts task acts fun passed world => ∃ known, assertion known passed world where
  step holds here fair moved holds' mine := by
    obtain ⟨known, here⟩ := here
    exact ⟨known, (lasts known).step holds here fair moved holds' mine⟩
  between holds here between holds' := by
    obtain ⟨known, here⟩ := here
    exact ⟨known, (lasts known).between holds here between holds'⟩

/-- A task that has ended stays as it ended. -/
theorem Lasts.outcome (number : Nat) (outcome : Outcome) :
    setting.Lasts task acts fun _ world => world.outcome? number = some outcome where
  step holds here fair moved holds' _ :=
    (step?_stepped (setting.wired holds) moved).settled (setting.wired holds) here
  between holds here between holds' := by
    rcases between.calm_or with calm | comes
    · rw [calm.outcomes, here]
    · rw [((setting.apart holds comes).2 number (outcome?_lt here)).2, here]

theorem Lasts.kept {process : Process} (lasts : setting.Lasts task acts first)
    (waits : ∀ act, process.act? = some act → act.Waits → acts act) :
    setting.Kept task first process where
  step holds here _ fair moved holds' mine :=
    lasts.step holds here fair moved holds' fun act known =>
      waits act (mine act known).2 (mine act known).1
  between := lasts.between

theorem Lasts.spans (lasts : setting.Lasts task acts first) : setting.Spans task acts first where
  step holds here fair moved holds' mine _ := lasts.step holds here fair moved holds' mine
  between := lasts.between

theorem Spans.mono (spans : setting.Spans task acts first) (fewer : ∀ act, acts' act → acts act) :
    setting.Spans task acts' first where
  step holds here fair moved holds' mine :=
    spans.step holds here fair moved holds' fun act known => fewer act (mine act known)
  between := spans.between

theorem Spans.and (spans : setting.Spans task acts first) (spans' : setting.Spans task acts second) :
    setting.Spans task acts fun passed world => first passed world ∧ second passed world where
  step holds here fair moved holds' mine going :=
    ⟨spans.step holds here.1 fair moved holds' mine going,
      spans'.step holds here.2 fair moved holds' mine going⟩
  between holds here between holds' :=
    ⟨spans.between holds here.1 between holds', spans'.between holds here.2 between holds'⟩

theorem Spans.kept {process : Process} {act : Act} (spans : setting.Spans task acts first)
    (begins : process.act? = some act) (waits : act.Waits → acts act) :
    setting.Kept task first process where
  step {passed world next} holds here left fair moved holds' mine := by
    refine spans.step holds here fair moved holds' (fun found acts => ?_) fun outcome running => ?_
    · obtain ⟨waiting, same⟩ := mine found acts
      cases begins.symm.trans same
      exact waits waiting
    · rw [process?_of_running running] at left
      cases left
      cases begins
  between := spans.between

/-- What is known while the task is being run is kept until it acts. -/
theorem Kept.held {process : Process} {act : Act} (acts : process.act? = some act)
    (active : ¬act.Waits)
    (between : ∀ {passed world next}, setting.holds passed world → first passed world →
      world.Between setting.outside next → setting.holds passed next → first passed next) :
    setting.Kept task (Held task first) process where
  step holds here left fair moved holds' idle := by
    have running := running_of_busy here.1 left
    exact absurd (idle act (act?_of_running running acts)).1 active
  between {passed world next} holds here comes holds' := by
    refine ⟨?_, between holds here.2 comes holds'⟩
    have running : world.current ≠ none := by
      intro none
      have busy := here.1
      simp [World.busy, none] at busy
    have same : next.current = world.current := by
      cases comes with
      | turn => rfl
      | gate gate idle => exact absurd idle running
      | outside comes => exact (setting.apart holds comes).1 running
    simpa [World.busy, same] using here.1

/-! ## Triples -/

namespace Meets

variable {α β : Type} {before : Assertion} {after : Except Failure α → Assertion}

theorem weaken {before' : Assertion} {after' : Except Failure α → Assertion} {program : Program α}
    (meets : setting.Meets task wanted before program after)
    (first : ∀ {passed world}, setting.holds passed world → before' passed world →
      before passed world)
    (last : ∀ {result passed world}, setting.holds passed world → after result passed world →
      after' result passed world) :
    setting.Meets task wanted before' program after' := by
  intro next passed world holds here left further
  refine meets holds (first holds here) left fun result later ending course here left => ?_
  exact further course (last (course.holds holds) here) left

/-- What outlasts everything is known in the end as well. -/
theorem frame {fact : Assertion} {program : Program α}
    (meets : setting.Meets task wanted before program after)
    (lasts : setting.Lasts task (fun _ => True) fact) :
    setting.Meets task wanted (fun passed world => fact passed world ∧ before passed world) program
      fun result passed world => fact passed world ∧ after result passed world := by
  rintro next passed world holds ⟨known, here⟩ left further
  refine meets holds here left fun result later ending course here left => ?_
  exact further course ⟨course.lasts lasts holds known, here⟩ left

/-- What is known of something before is known of it all along. -/
theorem exists_before {ι : Type} {before : ι → Assertion} {program : Program α}
    (meets : ∀ known, setting.Meets task wanted (before known) program after) :
    setting.Meets task wanted (fun passed world => ∃ known, before known passed world) program
      after := by
  rintro next passed world holds ⟨known, here⟩ left further
  exact meets known holds here left further

theorem and_before {known : Prop} {program : Program α}
    (meets : known → setting.Meets task wanted before program after) :
    setting.Meets task wanted (fun passed world => known ∧ before passed world) program after := by
  rintro next passed world holds ⟨known, here⟩ left further
  exact meets known holds here left further

theorem pure (value : α) (after : Except Failure α → Assertion) :
    setting.Meets task wanted (after (.ok value)) (Pure.pure value : Program α) after :=
  fun _ _ _ _ here left further => further .refl here left

theorem throw (fault : Fault) (after : Except Failure α → Assertion) :
    setting.Meets task wanted (after (.error (.fault fault))) (Program.throw fault) after :=
  fun _ _ _ _ here left further => further .refl here left

theorem ofOutcome (outcome : Except Failure α) (after : Except Failure α → Assertion) :
    setting.Meets task wanted (after outcome) (Program.ofOutcome outcome) after :=
  fun _ _ _ _ here left further => further .refl here left

theorem ofExcept (answer : Except Fault α) (after : Except Failure α → Assertion) :
    setting.Meets task wanted (after (answer.mapError .fault)) (Program.ofExcept answer) after := by
  cases answer with
  | ok value => exact pure value after
  | error fault => exact throw fault after

theorem bind {program : Program α} {further : α → Program β}
    {after' : Except Failure β → Assertion}
    (first : setting.Meets task wanted before program after)
    (second : ∀ value, setting.Meets task wanted (after (.ok value)) (further value) after')
    (passes : ∀ {failure passed world}, setting.holds passed world →
      after (.error failure) passed world → after' (.error failure) passed world) :
    setting.Meets task wanted before (program >>= further) after' := by
  intro next passed world holds here left continues
  refine first holds here left fun result later last course here left => ?_
  have held := course.holds holds
  cases result with
  | ok value =>
    exact second value held here left fun _ _ _ course' => continues (course.trans course')
  | error failure => exact continues course (passes held here) left

theorem rescue {program : Program α} {handler : Fault → Program α}
    {after' : Except Failure α → Assertion}
    (first : setting.Meets task wanted before program after)
    (handles : ∀ fault, setting.Meets task wanted (after (.error (.fault fault)))
      (handler fault) after')
    (passes : ∀ {value passed world}, setting.holds passed world →
      after (.ok value) passed world → after' (.ok value) passed world)
    (cancelled : ∀ {passed world}, setting.holds passed world →
      after (.error .cancelled) passed world → after' (.error .cancelled) passed world) :
    setting.Meets task wanted before (program.rescue handler) after' := by
  intro next passed world holds here left continues
  refine first holds here left fun result later last course here left => ?_
  have held := course.holds holds
  match result with
  | .ok value => exact continues course (passes held here) left
  | .error (.fault fault) =>
    exact handles fault held here left fun _ _ _ course' => continues (course.trans course')
  | .error .cancelled => exact continues course (cancelled held here) left

theorem ask {request : Request} {after : Except Failure request.Answer → Assertion}
    (kept : ∀ branch, setting.Kept task before (.ask request branch))
    (mine : ∀ {passed world next process}, setting.holds passed world → before passed world →
      setting.fair world → world.act? = some (.task task, .ask request) →
      world.step? = some next → next = (world.respond request).2.proceed (.task task) process →
      setting.holds (passed ++ [world]) next →
      after (.ok (world.respond request).1) (passed ++ [world]) next) :
    setting.Meets task wanted before (Program.ask request) after := by
  intro next passed world holds here left further
  refine Safe.of_node rfl (by simp [Act.Waits]) (kept _) ?_ holds here left
  intro later last ending course holds here fair running moved result holds'
  rw [runNode_ask] at result
  refine further course
    (mine holds here fair (act?_of_running running rfl) moved result holds') ?_
  rw [result, process?_proceed, if_pos rfl]

theorem addFor {role : Role} {name : String} {body : Program Value}
    {after : Except Failure Nat → Assertion}
    (kept : ∀ branch, setting.Kept task before (.add role name body.toProcess branch))
    (mine : ∀ {passed world next process}, setting.holds passed world → before passed world →
      setting.fair world → world.act? = some (.task task, .add role name body.toProcess) →
      world.step? = some next →
      next = (world.addTask name body.toProcess).2.proceed (.task task) process →
      setting.holds (passed ++ [world]) next →
      after ((world.addTask name body.toProcess).1.mapError .fault) (passed ++ [world]) next) :
    setting.Meets task wanted before (Program.addFor role name body) after := by
  intro next passed world holds here left further
  refine Safe.of_node rfl (by simp [Act.Waits]) (kept _) ?_ holds here left
  intro later last ending course holds here fair running moved result holds'
  rw [runNode_add] at result
  have done := mine holds here fair (act?_of_running running rfl) moved result holds'
  have left := congrArg (World.process? · (.task task)) result
  rw [process?_proceed, if_pos rfl] at left
  cases answer : (last.addTask name body.toProcess).1 with
  | ok number =>
    rw [answer] at done left
    exact further course done left
  | error fault =>
    rw [answer] at done left
    exact further course done left

/-- A program that keeps a law, under an assertion that outlasts whatever the law allows. -/
theorem lawful {law : Law} {good : Except Failure α → Prop} {program : Program α}
    (suits : setting.Suits task law) (lasts : setting.Lasts task law.allows before)
    (ensures : program.Ensures law good) :
    setting.Meets task wanted before program fun result passed world =>
      good result ∧ before passed world := by
  intro next passed world holds here left further
  have keeps : (program next).Keeps law fun process => ∃ result, good result ∧
      process = next result := ensures fun result known => .stop ⟨result, known, rfl⟩
  refine Safe.of_keeps suits lasts keeps ?_ holds here left
  rintro later last process course ⟨result, known, rfl⟩ holds here left
  exact further course ⟨known, here⟩ left

/-- A call, from where it is entered to where it is left. -/
theorem call {law : Law} {during : Assertion} {after : Outcome → Assertion} {role : Role}
    {callable : Callable} {args : List Value} (suits : setting.Suits task law)
    (obeys : (callable.process role args).Obeys law)
    (kept : ∀ branch, setting.Kept task before (.call role callable args branch))
    (enter : ∀ {passed world next process}, setting.holds passed world → before passed world →
      setting.fair world → world.act? = some (.task task, .call role callable args) →
      world.step? = some next → next = world.proceed (.task task) process →
      setting.holds (passed ++ [world]) next → during (passed ++ [world]) next)
    (lasts : setting.Lasts task law.allows during)
    (leave : ∀ {passed world next process} {outcome : Outcome}, FeatureRunner.Uncancelled outcome →
      setting.holds passed world → during passed world → setting.fair world →
      world.act? = some (.task task, .leave role outcome) → world.step? = some next →
      next = world.proceed (.task task) process → setting.holds (passed ++ [world]) next →
      after outcome (passed ++ [world]) next) :
    setting.Meets task wanted before (Program.call role callable args) after := by
  intro next passed world holds here left further
  refine Safe.of_node rfl (by simp [Act.Waits]) (kept _) ?_ holds here left
  intro later last inner course holds here fair running moved result holds'
  have entered := enter holds here fair (act?_of_running running rfl) moved result holds'
  have keeps : ((callable.process role args).andThen fun outcome =>
      .leave role outcome (next outcome)).Keeps law fun process => ∃ outcome,
        FeatureRunner.Uncancelled outcome ∧ process = .leave role outcome (next outcome) :=
    obeys.andThen fun outcome plain => .stop ⟨outcome, plain, rfl⟩
  refine Safe.of_keeps suits lasts keeps ?_ holds' entered
    (by rw [result]; exact if_pos rfl)
  rintro later last process course' ⟨outcome, plain, rfl⟩ holds here left
  refine Safe.of_node rfl (by simp [Act.Waits]) (lasts.kept ?_) ?_ holds here left
  · rintro act ⟨⟩ waits
    exact waits.elim
  · intro later last ending course'' holds here fair running moved result holds'
    have left' := leave plain holds here fair (act?_of_running running rfl) moved result holds'
    exact further ((course.trans course').trans course'') left' (by rw [result]; exact if_pos rfl)

/-- Waiting for the end of a task. -/
theorem join {awaited : Nat} (spans : setting.Spans task Act.Waits before) :
    setting.Meets task wanted before (Program.join awaited) fun result passed world =>
      result = .ok () ∧ before passed world ∧
        (awaited < world.tasks.length → (world.outcome? awaited).isSome) := by
  intro next passed world holds here left further
  refine Safe.of_join (spans.kept rfl id) ?_ holds here left
  exact fun course _ here ended left => further course ⟨rfl, here, ended⟩ left

/-- A question that leaves an assertion as it is. -/
theorem askOutcome {awaited : Nat} (spans : setting.Spans task
      (fun act => act.Waits ∨ act = .ask (.outcome awaited)) before) :
    setting.Meets task wanted before (Program.ask (.outcome awaited)) fun result passed world =>
      before passed world ∧ result = .ok (world.outcome? awaited) := by
  refine ask (fun _ => spans.kept rfl .inl) ?_
  intro passed world next process holds here fair acts moved result holds'
  have here := spans.step holds here fair moved holds' (fun act known => by
    rw [acts] at known
    cases known
    exact .inr rfl) fun outcome running => by
      simp [World.act?, running, Process.act?] at acts
  exact ⟨here, by rw [result]; rfl⟩

/-- Waiting for a task and taking its outcome. -/
theorem settled {awaited : Nat} (spans : setting.Spans task
      (fun act => act.Waits ∨ act = .ask (.outcome awaited)) before)
    (inside : ∀ {passed world}, setting.holds passed world → before passed world →
      awaited < world.tasks.length) :
    setting.Meets task wanted before (Recorder.settled awaited) fun outcome passed world =>
      before passed world ∧ world.outcome? awaited = some outcome := by
  have finds (outcome : Outcome) : setting.Meets task wanted
      (fun passed world => before passed world ∧ world.outcome? awaited = some outcome)
      (Recorder.resultOf awaited) fun outcome passed world =>
        before passed world ∧ world.outcome? awaited = some outcome := by
    refine bind (askOutcome (spans.and (Lasts.outcome awaited outcome).spans)) (fun found => ?_)
      (by rintro _ _ _ _ ⟨_, ⟨⟩⟩)
    cases found with
    | some other =>
      refine (ofOutcome other _).weaken ?_ fun _ here => here
      rintro passed world holds ⟨⟨here, known⟩, same⟩
      exact ⟨here, (Except.ok.inj same).symm⟩
    | none =>
      rintro next passed world holds ⟨⟨here, known⟩, same⟩
      rw [known] at same
      cases same
  refine bind (askOutcome spans) (fun found => ?_) (by rintro _ _ _ _ ⟨_, ⟨⟩⟩)
  cases found with
  | some outcome =>
    refine (ofOutcome outcome _).weaken ?_ fun _ here => here
    exact fun holds here => ⟨here.1, (Except.ok.inj here.2).symm⟩
  | none =>
    refine bind ((join (spans.mono fun _ => .inl)).weaken (fun _ here => here.1)
      fun _ here => here) (fun _ => ?_) (by rintro _ _ _ _ ⟨⟨⟩, _⟩)
    refine (exists_before finds).weaken (fun holds here => ?_) fun _ here => here
    obtain ⟨outcome, ended⟩ := Option.isSome_iff_exists.1 (here.2.2 (inside holds here.2.1))
    exact ⟨outcome, here.2.1, ended⟩

end Meets

/-- A triple of a whole task. -/
theorem Meets.safe {before : Assertion} {after : Outcome → Assertion} {program : Program Value}
    (meets : setting.Meets task wanted before program after)
    (lasts : ∀ outcome, setting.Lasts task Act.Waits (after outcome))
    (fulfils : ∀ {outcome passed world}, setting.holds passed world →
      after outcome passed world → wanted outcome passed world)
    (holds : setting.holds passed world) (here : before passed world)
    (left : world.process? (.task task) = some program.toProcess) :
    setting.Safe task wanted passed world := by
  refine meets holds here left fun outcome later last course here left => ?_
  exact Safe.of_done ((lasts outcome).kept fun _ _ waits => waits) fulfils (course.holds holds)
    here left

end Setting

end World

end FeatureRunner
