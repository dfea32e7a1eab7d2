import FeatureRunner.Proofs.Sequential.Mirror

/-!
What the host runs without a break: emissions and the bodies of steps. Node by node the interpreter
does the same, and what is added goes to the end of its queue.
-/

namespace FeatureRunner
open FeatureRunner.World

/-- A law under which nothing waits. -/
structure Law.Brisk (law : Law) : Prop extends law.Plain where
  active : ∀ act, law.allows act → ¬act.Waits

/-- The law allows that a run or a step makes use of the recorder. -/
def Law.Employs (law : Law) : Prop :=
  ∃ act, law.allows act ∧ ∃ role, act.use? = some role ∧ (role = .run ∨ role = .step)

namespace Sequential

/-- The queue is as it was, if the law allows no use of the recorder. -/
def Spared (law : Law) (before after : State) : Prop :=
  after.queue = before.queue ∨ law.Employs

section Bodies

variable {host : Nat} {law : Law} {state : State} {wanted : Outcome → Assertion}
  {passed : History} {world after : World} {process : Process} {next : Outcome → Process}

theorem Spared.trans {before middle later : State} (spared : Spared law before middle)
    (spared' : Spared law middle later) : Spared law before later := by
  rcases spared with same | employs
  · exact spared'.imp_left (Eq.trans · same)
  · exact .inr employs

/-- The host and the interpreter do what a process does next. -/
theorem Mirrors.goes {act : Act} (brisk : law.Brisk) (obeys : process.Obeys law)
    (begins : process.act? = some act) (here : Looped host passed world) (alone : world.Alone host)
    (mirrors : Mirrors host state passed world)
    (running : world.current = some (.task host, process.andThen next))
    (moved : world.step? = some after) : ∃ (rest : Process) (final : State),
      rest.execute final = process.execute state ∧ Spared law state final ∧ rest.Obeys law ∧
      Mirrors host final (passed ++ [world]) after ∧
      after.process? (.task host) = some (rest.andThen next) := by
  have acts := act?_of_running running (act?_andThen begins next)
  have allowed := obeys.allowed begins
  have uses (role : Role) (use : act.use? = some role) : law.Employs :=
    ⟨act, allowed, role, use, ((alone.use acts).2 role use).2⟩
  rw [step?_of_running running, Option.some.injEq] at moved
  subst moved
  cases process with
  | done => cases begins
  | ask request branch =>
    cases begins
    obtain ⟨answer, mirrors'⟩ := mirrors.ask
      ((branch (world.respond request).1).andThen next) here alone acts
    refine ⟨branch (state.ask request).1, (state.ask request).2, ?_, ?_, ?_, ?_, ?_⟩
    · rw [Process.execute]
    · by_cases recovers : ∃ role, request = .recorder role .recover
      · obtain ⟨role, rfl⟩ := recovers
        exact .inr (uses role rfl)
      · rw [State.ask_of_steady fun role equal => recovers ⟨role, equal⟩]
        exact .inl rfl
    · rw [answer]
      have granted := brisk.grants _ _ (here.serial.uncancelled.fair request)
      exact obeys.next brisk.closed (.ask granted) (brisk.assumes _)
    · rw [Process.andThen, runNode_ask]
      exact mirrors'
    · rw [Process.andThen, runNode_ask, answer]
      exact if_pos rfl
  | call role callable args branch =>
    cases begins
    refine ⟨(callable.process role args).andThen branch, state, ?_, .inl rfl,
      obeys.next brisk.closed .call (brisk.assumes _), ?_, ?_⟩
    · rw [Process.execute]
    · refine mirrors.stays ⟨rfl, rfl, fun _ => rfl⟩ (fun owner act acts' => ?_) (.inr rfl)
      cases acts.symm.trans acts'
      exact trivial
    · rw [Process.andThen_assoc]
      exact if_pos rfl
  | leave role outcome rest =>
    cases begins
    refine ⟨rest, state, ?_, .inl rfl, obeys.next brisk.closed .leave (brisk.assumes _), ?_,
      if_pos rfl⟩
    · rw [Process.execute]
    · refine mirrors.stays ⟨rfl, rfl, fun _ => rfl⟩ (fun owner act acts' => ?_) (.inr rfl)
      cases acts.symm.trans acts'
      exact trivial
  | add role name body branch =>
    cases begins
    obtain ⟨answer, mirrors'⟩ := mirrors.add
      ((branch (world.addTask name body).1).andThen next) here acts
    refine ⟨branch (state.add name body).1, (state.add name body).2, ?_, .inr (uses role rfl), ?_,
      ?_, ?_⟩
    · rw [Process.execute]
    · exact obeys.next brisk.closed (.add fun _ _ => brisk.numbers _) (brisk.assumes _)
    · rw [Process.andThen, runNode_add]
      exact mirrors'
    · rw [Process.andThen, runNode_add, answer]
      exact if_pos rfl
  | await | join | wait | yield =>
    cases begins
    exact absurd trivial (brisk.active _ allowed)

/-- A process that does not wait is executed by the interpreter when the host has come to its end. -/
theorem Mirrors.executes (brisk : law.Brisk) (obeys : process.Obeys law)
    (here : Looped host passed world) (mirrors : Mirrors host state passed world)
    (left : world.process? (.task host) = some (process.andThen next))
    (further : ∀ {later last outcome final}, (solitary host).Course passed world later last →
      process.execute state = some (outcome, final) → Uncancelled outcome →
      Spared law state final → Mirrors host final later last → last.process? (.task host) = some (next outcome) →
      (solitary host).Safe host wanted later last) :
    (solitary host).Safe host wanted passed world := by
  have plain {outcome : Outcome} (obeys : (Process.done outcome).Obeys law) :
      Uncancelled outcome := by
    cases obeys with
    | stop plain => exact plain
  by_cases ended : ∃ outcome, process = .done outcome
  · obtain ⟨outcome, rfl⟩ := ended
    exact further .refl (by rw [Process.execute]) (plain obeys) (.inl rfl) mirrors left
  -- Until the end, what the interpreter has still to execute is what the host has still to do.
  let amid : Assertion := fun passed world => ∃ (rest : Process) (final : State) (act : Act),
    rest.execute final = process.execute state ∧ Spared law state final ∧ rest.Obeys law ∧
    Mirrors host final passed world ∧ world.process? (.task host) = some (rest.andThen next) ∧
    rest.act? = some act
  have begins {rest : Process} (active : ¬∃ outcome, rest = .done outcome) :
      ∃ act, rest.act? = some act := by
    cases rest with
    | done outcome => exact absurd ⟨outcome, rfl⟩ active
    | _ => exact ⟨_, rfl⟩
  obtain ⟨act, acts⟩ := begins ended
  refine Setting.Safe.of_until amid here ⟨_, _, act, rfl, .inl rfl, obeys, mirrors, left, acts⟩
    ?_ ?_ ?_
  · rintro passed world here ⟨rest, final, act, _, _, _, _, left, acts⟩
    exact ⟨_, act, left, act?_andThen acts next⟩
  · rintro passed world after course here ⟨rest, final, act, same, spared, obeys, mirrors, left, acts⟩
      fair moved here'
    have active : ¬act.Waits := brisk.active act (obeys.allowed acts)
    have acts' := act?_andThen acts next
    by_cases busy : world.busy = some host
    · obtain ⟨rest', final', same', spared', obeys', mirrors', left'⟩ :=
        mirrors.goes brisk obeys acts here fair (Setting.running_of_busy busy left) moved
      by_cases ended : ∃ outcome, rest' = .done outcome
      · obtain ⟨outcome, rfl⟩ := ended
        refine .inr (further course ?_ (plain obeys') (spared.trans spared') mirrors' left')
        rw [← same, ← same', Process.execute]
      · obtain ⟨act', acts'⟩ := begins ended
        exact .inl ⟨rest', final', act', same'.trans same, spared.trans spared', obeys', mirrors',
          left', acts'⟩
    · refine .inl ⟨rest, final, act, same, spared, obeys, ?_,
        Setting.process?_of_resting acts' active here left busy moved, acts⟩
      exact (Mirrors.kept acts' active).step here mirrors left fair moved here' fun act known =>
        absurd known (Setting.act?_ne_of_busy busy)
  · rintro passed world after course here ⟨rest, final, act, same, spared, obeys, mirrors, left, acts⟩
      between here'
    have active : ¬act.Waits := brisk.active act (obeys.allowed acts)
    have acts' := act?_andThen acts next
    obtain ⟨after', left', passes⟩ := Setting.passes_of_between here left between
    have still := Setting.eq_of_passes passes acts' active
    subst still
    exact .inl ⟨rest, final, act, same, spared, obeys,
      (Mirrors.kept acts' active).between here mirrors between here', left', acts⟩

end Bodies

end Sequential

end FeatureRunner
