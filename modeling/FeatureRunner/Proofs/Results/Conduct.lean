import FeatureRunner.Proofs.Results.Books

/-!
Suites that are run one after the other, each as a task, with the collector attached. When a suite
has ended nothing is owed to the collector, so the results report on it, and where it was run the
next one may be.
-/

namespace FeatureRunner
open FeatureRunner.World

variable {attached : Prop} {before passed : History} {start world next : World} {suite : Suite}

/-- The collector is attached and nobody owes anything to it. -/
structure World.Paid (world : World) : Prop where
  heeds : ∀ owner process, world.process? owner = some process →
    process.Heeds accounting (Protocol.Back []) []
  watched : world.Watched

theorem World.Paid.accounted (paid : world.Paid) (passed : History) :
    Accounted world.results passed.ledger [] passed world where
  books := ⟨[], [], by simp, rfl, rfl⟩
  heeds owner process left := by
    rw [owes_nil]
    exact paid.heeds owner process left
  watched := paid.watched
  idle _ := rfl

theorem Accounted.paid {origin : Results} {prior : List Entry}
    (accounted : Accounted origin prior [] passed world) : world.Paid where
  heeds owner process left := by
    have heeds := accounted.heeds owner process left
    rwa [World.owes_nil] at heeds
  watched := accounted.watched

theorem World.Paid.spawn {process : Process} (paid : start.Paid) (wired : start.Wired start.busy)
    (heeds : process.Heeds accounting (Protocol.Back []) []) : (start.spawn process).1.Paid where
  heeds owner after left := by
    rw [process?_spawn wired] at left
    split at left
    · cases left
      exact heeds
    · exact paid.heeds owner after left
  watched := paid.watched

/-! ## One suite -/

/-- Bystanders run up no debts. -/
theorem World.Beside.owing (beside : world.Beside) : world.owing [] = [] := by
  unfold World.owing
  split
  · rename_i owner act acts
    cases act with
    | ask request =>
      cases request with
      | subscribers role event args =>
        rcases beside _ _ acts with waits | apart
        · exact waits.elim
        · cases role with
          | run => exact absurd rfl apart
          | _ => rfl
      | _ => rfl
    | _ => rfl
  · rfl

/-- When its task has ended only bystanders are at work. -/
theorem beside_of_ended {host : Nat} {outcome : Outcome} (hosted : Hosted host passed world)
    (aside : Aside world [host]) (ended : world.outcome? host = some outcome) : world.Beside := by
  refine aside.beside fun act acts => ?_
  obtain ⟨process, running, does⟩ := running_of_act? acts
  have left := process?_of_running running
  rw [process?_of_outcome hosted.serial.wired ended, Option.some.injEq] at left
  subst left
  cases does

theorem outcome?_between {host : Nat} (hosted : Hosted host passed world)
    (between : world.Between besides next) : next.outcome? host = world.outcome? host := by
  rcases between.calm_or with calm | comes
  · exact calm.outcomes host
  · exact ((comes.1.apart hosted.serial.wired).2 host hosted.inside).2

/-- A task that ends in a step owes nothing. -/
theorem Accounted.square_of_ending {origin : Results} {prior : List Entry} {debts : List Due}
    {host : Nat} (accounted : Accounted origin prior debts passed world)
    (stepped : world.Stepped next) (unsettled : world.outcome? host = none)
    (ended : (next.outcome? host).isSome) : world.owing debts = [] := by
  rcases stepped.outcome? host with same | ⟨outcome, running, _⟩
  · simp [same, unsettled] at ended
  · have idle : world.act? = none := by simp [World.act?, running, Process.act?]
    simpa [World.owing, idle] using accounted.square idle

section Suite

variable (vacant : Vacant attached before start)
include vacant

/-- However a run goes on from where a suite was begun, the suite has been run when its task has
ended. -/
theorem suite_done (run : Run besides (start.spawn suite.run.toProcess).1 passed world)
    (orderly : ∀ past ∈ passed, past.Orderly attached) {outcome : Outcome}
    (ended : world.outcome? start.tasks.length = some outcome) :
    SuiteDone start.tasks.length attached before.ledger suite outcome (before ++ passed) world :=
  suite_safe (hosted_of_spawn vacant (suite.run_obeys mute_runs).toProcess) (rest_of_spawn vacant)
    (process?_of_suite vacant) _ _ (.of_run before run orderly) outcome ended

/-- While a suite is run the books are kept, and they are square when its task has ended. -/
theorem suite_books (paid : start.Paid)
    (run : Run attending (start.spawn suite.run.toProcess).1 passed world)
    (orderly : ∀ past ∈ passed, past.Orderly attached) (genuine : ∀ past ∈ passed, past.Genuine) :
    Hosted start.tasks.length (before ++ passed) world ∧ ∃ debts,
      Accounted start.results before.ledger debts (before ++ passed) world ∧
        ((world.outcome? start.tasks.length).isSome → debts = []) := by
  induction run with
  | refl =>
    have spawned := paid.spawn vacant.serial.wired suite.run_heeds
    rw [List.append_nil]
    exact ⟨hosted_of_spawn vacant (suite.run_obeys mute_runs).toProcess, [],
      spawned.accounted before, fun _ => rfl⟩
  | @step passed world next run moved ih =>
    have earlier {past : World} (member : past ∈ passed) : past ∈ passed ++ [world] :=
      List.mem_append_left _ member
    obtain ⟨hosted, debts, accounted, square⟩ :=
      ih (fun past member => orderly past (earlier member)) fun past member =>
        genuine past (earlier member)
    have fair := orderly world (by simp)
    have stepped := step?_stepped hosted.serial.wired moved
    rw [← List.append_assoc]
    refine ⟨(hosting start.tasks.length attached).step hosted fair moved, _,
      accounted.step hosted fair.granted (genuine world (by simp)) moved, fun ended => ?_⟩
    cases before' : world.outcome? start.tasks.length with
    | none => exact accounted.square_of_ending stepped before' ended
    | some outcome =>
      obtain ⟨_, _, _, _, rest⟩ := suite_done vacant (run.mono fun _ _ => attending.besides)
        (fun past member => orderly past (earlier member)) before'
      rw [square (by simp [before'])]
      exact (beside_of_ended hosted rest.aside before').owing
  | @between passed world next run between ih =>
    obtain ⟨hosted, debts, accounted, square⟩ := ih orderly genuine
    have calm : world.Between besides next := between.mono attending.besides
    refine ⟨(hosting start.tasks.length attached).between hosted calm, debts,
      accounted.between hosted between, ?_⟩
    rwa [outcome?_between hosted calm]

section Ended

variable {outcome : Outcome} (paid : start.Paid)
  (run : Run attending (start.spawn suite.run.toProcess).1 passed world)
  (orderly : ∀ past ∈ passed, past.Orderly attached) (genuine : ∀ past ∈ passed, past.Genuine)
  (ended : world.outcome? start.tasks.length = some outcome)
include paid run orderly genuine ended

/-- A suite that has been run adds a feature to the results, which reports on it. -/
theorem suite_reported : ∃ endings feature,
    outcome = .ok (.list (List.zipWith Test.report suite.tests endings)) ∧
    FeatureResult.Reports feature suite endings ∧
    world.results.features = start.results.features ++ [feature] := by
  obtain ⟨entries, endings, same, ran, rest⟩ :=
    suite_done vacant (run.mono fun _ _ => attending.besides) orderly ended
  obtain ⟨_, debts, accounted, square⟩ := suite_books vacant paid run orderly genuine
  obtain rfl := square (by simp [ended])
  obtain ⟨heard, told, ledger, books, results⟩ := accounted.books
  have told_eq : told = .emitted suiteBefore [.suite suite.card] :: entries ++
      [.emitted suiteAfter [.suite suite.card]] :=
    List.append_cancel_left (ledger.symm.trans rest.ledger)
  have dues : heard.map (·.2) = suite.dues endings := by
    rw [← dues_of_suite ran, ← told_eq, ← books, List.append_nil]
  obtain ⟨feature, reports, features⟩ : ∃ feature, FeatureResult.Reports feature suite endings ∧
      (start.results.collectAll heard).features = start.results.features ++ [feature] :=
    collect_suite (dues_of_tests ran).2 dues
  exact ⟨endings, feature, same, reports, results ▸ features⟩

/-- Where a suite has been run another one may be. -/
theorem suite_leaves : Vacant attached (before ++ passed) world ∧ world.Paid := by
  obtain ⟨entries, endings, same, ran, rest⟩ :=
    suite_done vacant (run.mono fun _ _ => attending.besides) orderly ended
  obtain ⟨hosted, debts, accounted, square⟩ := suite_books vacant paid run orderly genuine
  obtain rfl := square (by simp [ended])
  refine ⟨⟨hosted.serial, hosted.looping, fun owner process _ left => ?_, rest.sound, rest.closed⟩,
    accounted.paid⟩
  by_cases mine : owner = .task start.tasks.length
  · subst mine
    have done := process?_of_outcome hosted.serial.wired ended
    obtain rfl := Option.some.inj (left.symm.trans done)
    exact .stop (hosted.serial.uncancelled.plain ended)
  · exact rest.aside owner process (by simpa using mine) left

end Ended

end Suite

/-! ## Suites one after the other -/

/-- Suites are run in order, each as a task of its own, which the next one comes after. -/
inductive Conducted (start : World) : List (Suite × Outcome) → History → World → Prop
  | none : Conducted start [] [] start
  | next {ran : List (Suite × Outcome)} {passed later : History} {mid world : World} {suite : Suite}
      {outcome : Outcome} (earlier : Conducted start ran passed mid)
      (run : Run attending (mid.spawn suite.run.toProcess).1 later world)
      (ended : world.outcome? mid.tasks.length = some outcome) :
      Conducted start (ran ++ [(suite, outcome)]) (passed ++ later) world

/-- A suite with what it answers when its tests have ended in some way. -/
def Suite.answered (suite : Suite) (endings : List (Option Fault)) : Suite × Outcome :=
  (suite, .ok (.list (List.zipWith Test.report suite.tests endings)))

theorem suites_reported {ran : List (Suite × Outcome)} (vacant : Vacant attached before start)
    (paid : start.Paid) (conducted : Conducted start ran passed world)
    (orderly : ∀ past ∈ passed, past.Orderly attached) (genuine : ∀ past ∈ passed, past.Genuine) :
    (Vacant attached (before ++ passed) world ∧ world.Paid) ∧ ∃ (told : SuitesRan) (features : _),
      ran = told.map (fun (suite, endings) => suite.answered endings) ∧
      Results.Report features told ∧
      world.results.features = start.results.features ++ features := by
  induction conducted with
  | none => exact ⟨⟨by simpa using vacant, paid⟩, [], [], rfl, .nil, by simp⟩
  | @next ran passed later mid world suite outcome earlier run ended ih =>
    obtain ⟨⟨vacant, paid⟩, told, features, rfl, reports, results⟩ :=
      ih (fun past member => orderly past (List.mem_append_left _ member)) fun past member =>
        genuine past (List.mem_append_left _ member)
    have orderly (past : World) (member : past ∈ later) := orderly past (List.mem_append_right _ member)
    have genuine (past : World) (member : past ∈ later) := genuine past (List.mem_append_right _ member)
    rw [← List.append_assoc]
    refine ⟨suite_leaves vacant paid run orderly genuine ended, ?_⟩
    obtain ⟨endings, feature, rfl, reported, more⟩ :=
      suite_reported vacant paid run orderly genuine ended
    refine ⟨told ++ [(suite, endings)], features ++ [feature], ?_, ?_, ?_⟩
    · simp [Suite.answered]
    · exact List.rel_append reports (.cons reported .nil)
    · rw [more, results, List.append_assoc]

end FeatureRunner
