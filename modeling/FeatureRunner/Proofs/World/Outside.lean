import FeatureRunner.Proofs.World.Run

/-!
What comes from outside leaves the tasks that there are, the recorder and the loop as they are. A
run is put together from its parts: every world of its history was reached by a run, and the run goes
on from there.
-/

namespace FeatureRunner

namespace World

variable {world next : World}

theorem Flows.looping (flows : world.Flows next) : next.looping = world.looping := by
  change next.scene.looping = world.scene.looping
  rw [flows.scene]

theorem Stepped.looping (stepped : world.Stepped next) : next.looping = world.looping := by
  cases stepped with
  | @asks owner request branch running =>
    change (world.respond request).2.looping = _
    by_cases steady : ∀ role, request ≠ .recorder role .recover
    · exact (respond_rests request steady).looping
    · obtain ⟨role, rfl⟩ : ∃ role, request = .recorder role .recover := by
        simpa using steady
      change world.recover.2.looping = _
      rcases recover_cases world with ⟨rests, _⟩ | ⟨previous, _, _, _, result⟩
      · exact rests.looping
      · rw [result]
        rfl
  | calls running => rfl
  | leaves running => rfl
  | @adds owner role name body branch running =>
    change (world.addTask name body).2.looping = _
    rcases addTask_cases world name body with ⟨_, result⟩ | ⟨_, result⟩
    · rw [result]
    · rw [result]
      rfl
  | ends running flows => exact flows.looping
  | notices idle calm quiet => exact calm.toFlows.looping
  | passes waits calm => exact calm.toFlows.looping

theorem Intervention.mono {brings brings' : Process → Prop} (comes : Intervention brings world next)
    (more : ∀ process, brings process → brings' process) : Intervention brings' world next := by
  cases comes with
  | enters brought idle => exact .enters (more _ brought) idle
  | spawns brought => exact .spawns (more _ brought)
  | watches task callable => exact .watches task callable
  | alters apart => exact .alters apart

/-- Nothing from outside meddles with the tasks that there are. -/
theorem Intervention.apart {brings : Process → Prop} (comes : Intervention brings world next)
    (wired : world.Wired world.busy) :
    (world.current ≠ none → next.current = world.current) ∧
    ∀ number, number < world.tasks.length →
      next.process? (.task number) = world.process? (.task number) ∧
      next.outcome? number = world.outcome? number := by
  cases comes with
  | enters brought idle =>
    refine ⟨fun busy => absurd idle busy, fun number _ => ⟨?_, rfl⟩⟩
    rw [process?_of_idle idle]
    rfl
  | spawns brought =>
    refine ⟨fun _ => rfl, fun number inside => ⟨?_, outcome?_spawn _ number⟩⟩
    rw [process?_spawn wired, if_neg]
    exact fun same => Nat.ne_of_lt inside (Owner.task.inj same)
  | watches task callable =>
    have state (number : Nat) : (world.watch task (.notify callable)).state? number =
        world.state? number := state?_watch _ _ _
    refine ⟨fun _ => rfl, fun number _ => ⟨?_, by simp only [outcome?, state]⟩⟩
    have same : (world.watch task (.notify callable)).standing number = world.standing number := by
      rw [standing, state, standing]
    simp only [process?, asleep?, same]
    rfl
  | alters apart =>
    have tasks : next.tasks = world.tasks := by rw [apart]
    have current : next.current = world.current := by rw [apart]
    refine ⟨fun _ => current, fun number _ => ⟨process?_congr tasks current, ?_⟩⟩
    simp only [outcome?, state?, tasks]

theorem Between.recorder {brings : Process → Prop} (between : world.Between (Intervention brings) next) :
    next.recorder = world.recorder := by
  rcases between.calm_or with calm | comes
  · exact calm.toFlows.recorder
  · cases comes with
    | alters apart => rw [apart]
    | _ => rfl

/-- What is at hand stays at hand. -/
theorem Between.current {brings : Process → Prop} (between : world.Between (Intervention brings) next)
    (busy : world.current ≠ none) : next.current = world.current := by
  cases between with
  | turn => rfl
  | gate gate idle => exact absurd idle busy
  | outside comes =>
    cases comes with
    | enters brought idle => exact absurd idle busy
    | spawns brought => rfl
    | watches task callable => rfl
    | alters apart => rw [apart]

theorem looping_of_between {outside : World → World → Prop} (between : world.Between outside next)
    (stays : outside world next → next.looping = world.looping) : next.looping = world.looping := by
  rcases between.calm_or with calm | comes
  · exact calm.toFlows.looping
  · exact stays comes

theorem Between.length {brings : Process → Prop} (between : world.Between (Intervention brings) next) :
    world.tasks.length ≤ next.tasks.length := by
  rcases between.calm_or with calm | comes
  · exact Nat.le_of_eq calm.length.symm
  · cases comes with
    | enters brought idle => exact Nat.le_refl _
    | spawns brought => simp [World.spawn]
    | watches task callable => simp [World.watch]
    | alters apart =>
      have tasks : next.tasks = world.tasks := by rw [apart]
      exact Nat.le_of_eq (congrArg List.length tasks.symm)

/-- Between two steps a process goes on where it waits, or comes from outside. -/
theorem Between.passes_or {brings : Process → Prop} {owner : Owner} {after : Process}
    (between : world.Between (Intervention brings) next) (wired : world.Wired world.busy)
    (left : next.process? owner = some after) :
    (∃ before, world.process? owner = some before ∧ before.Passes next after) ∨
      brings after ∧ ∀ number, owner = .task number → world.tasks.length ≤ number := by
  rcases between.calm_or with calm | comes
  · exact .inl (calm.passes owner after left)
  · cases comes with
    | @enters process brought idle =>
      cases owner with
      | caller =>
        cases left
        exact .inr ⟨brought, by simp⟩
      | task number => exact .inl ⟨after, (process?_of_idle idle).trans left, .refl after⟩
    | @spawns process brought =>
      rw [process?_spawn wired] at left
      split at left
      · rename_i new
        cases left
        exact .inr ⟨brought, fun number same => Nat.le_of_eq (Owner.task.inj (new.symm.trans same))⟩
      · exact .inl ⟨after, left, .refl after⟩
    | watches task callable =>
      have calm : world.Calm (world.watch task (.notify callable)) := .watch task _
      exact .inl (calm.passes owner after left)
    | alters same =>
      have tasks : next.tasks = world.tasks := by rw [same]
      have current : next.current = world.current := by rw [same]
      exact .inl ⟨after, by rwa [← process?_congr tasks current], .refl after⟩

/-- A run goes on from every world of its history. -/
theorem Run.split {outside : World → World → Prop} {start last : World} {early late : History}
    (run : Run outside start (early ++ world :: late) last) : Run outside start early world ∧
      ∃ next, world.step? = some next ∧ Run outside next late last := by
  generalize whole : early ++ world :: late = passed at run
  induction run generalizing late with
  | refl => simp at whole
  | @step passed last next run moved ih =>
    rcases List.eq_nil_or_concat late with rfl | ⟨late, past, rfl⟩
    · obtain ⟨rfl, same⟩ := List.append_inj' whole rfl
      cases same
      exact ⟨run, next, moved, .refl⟩
    · rw [List.concat_eq_append, ← List.cons_append, ← List.append_assoc] at whole
      obtain ⟨rfl, same⟩ := List.append_inj' whole rfl
      cases same
      obtain ⟨before, follower, begins, further⟩ := ih rfl
      refine ⟨before, follower, begins, ?_⟩
      rw [List.concat_eq_append]
      exact further.step moved
  | between run between ih =>
    obtain ⟨before, follower, begins, further⟩ := ih whole
    exact ⟨before, follower, begins, further.between between⟩

end World

end FeatureRunner
