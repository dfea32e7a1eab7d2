import FeatureRunner.Proofs.Calendar.Text
import FeatureRunner.Proofs.Recorder.Trace
import FeatureRunner.Proofs.Results.Books

/-!
Times in results. Whatever a collector has collected is stamped with texts of moments, so that the
durations in a report can be computed.

Main statement: `Results.Collected.timed`.
-/

namespace FeatureRunner
open FeatureRunner.Calendar FeatureRunner.Number

/-- A text of a moment whose year has four digits. -/
def Stamp (text : String) : Prop :=
  ∃ moment : Moment, moment.Dated ∧ text = moment.text

theorem Calendar.Moment.Dated.stamp {moment : Moment} (dated : moment.Dated) : Stamp moment.text :=
  ⟨moment, dated, rfl⟩

/-! ## Results with stamps -/

structure ScenarioResult.Timed (scenario : ScenarioResult) : Prop where
  start : Stamp scenario.startTime
  finish : ∀ time ∈ scenario.endTime, Stamp time

structure FeatureResult.Timed (feature : FeatureResult) : Prop where
  start : Stamp feature.startTime
  finish : ∀ time ∈ feature.endTime, Stamp time
  scenarios : ∀ scenario ∈ feature.scenarios, scenario.Timed

/-- All times in results are texts of moments. -/
structure Results.Timed (results : Results) : Prop where
  start : ∀ time ∈ results.startTime, Stamp time
  finish : ∀ time ∈ results.endTime, Stamp time
  features : ∀ feature ∈ results.features, feature.Timed

theorem Results.Timed.start_getD {results : Results} {now : String} (timed : results.Timed)
    (stamp : Stamp now) : Stamp (results.startTime.getD now) := by
  cases known : results.startTime with
  | none => exact stamp
  | some time => exact timed.start time known

theorem Results.Timed.finish_getD {results : Results} {now : String} (timed : results.Timed)
    (stamp : Stamp now) : ∀ time ∈ some (results.endTime.getD now), Stamp time := by
  intro time member
  obtain rfl := Option.some.inj member
  cases known : results.endTime with
  | none => exact stamp
  | some time => exact timed.finish time known

/-- Results that a collector has collected: it was told of events at some moments. -/
inductive Results.Collected : Results → Prop
  | initial : Collected .initial
  | collects {results : Results} {clock : Moment} (earlier : Collected results) (dated : clock.Dated)
      (event : CollectorEvent) (args : List Value) : Collected (results.collect clock.text event args).2

theorem forall_mem_modify {α : Type} {holds : α → Prop} {items : List α} {place : Nat}
    {change : α → α} (each : ∀ item ∈ items, holds item)
    (keeps : ∀ item, holds item → holds (change item)) : ∀ item ∈ items.modify place change, holds item := by
  intro item member
  obtain ⟨number, inside, rfl⟩ := List.getElem_of_mem member
  rw [List.length_modify] at inside
  rw [List.getElem_modify]
  split
  · exact keeps _ (each _ (List.getElem_mem inside))
  · exact each _ (List.getElem_mem inside)

namespace Results.Timed

variable {results : Results} {now : String}

theorem started (timed : results.Timed) (stamp : Stamp now) : (results.started now).Timed where
  start time member := by
    obtain rfl := Option.some.inj member
    cases known : results.startTime with
    | none => exact stamp
    | some first => exact timed.start first known
  finish := timed.finish
  features := timed.features

theorem beginFeature (timed : results.Timed) (stamp : Stamp now) (title : String) (tags : List String) :
    (results.beginFeature now title tags).Timed where
  start := (timed.started stamp).start
  finish := timed.finish
  features feature member := by
    rcases List.mem_append.1 member with old | new
    · exact timed.features feature old
    · obtain rfl := List.mem_singleton.1 new
      exact ⟨stamp, nofun, nofun⟩

theorem updateFeature (timed : results.Timed) (number : Nat) {change : FeatureResult → FeatureResult}
    (keeps : ∀ feature, feature.Timed → (change feature).Timed) :
    (results.updateFeature number change).Timed :=
  ⟨timed.start, timed.finish, forall_mem_modify timed.features keeps⟩

theorem updateScenario (timed : results.Timed) {change : ScenarioResult → ScenarioResult}
    (keeps : ∀ scenario, scenario.Timed → (change scenario).Timed) :
    (results.updateScenario change).Timed := by
  unfold Results.updateScenario
  split
  · exact timed.updateFeature _ fun feature known =>
      ⟨known.start, known.finish, forall_mem_modify known.scenarios keeps⟩
  · exact timed

theorem endFeature (timed : results.Timed) (stamp : Stamp now) : (results.endFeature now).Timed := by
  have finish (time : String) (member : time ∈ some now) : Stamp time :=
    Option.some.inj member ▸ stamp
  unfold Results.endFeature
  split
  · rename_i number _
    have ended := timed.updateFeature number fun feature known =>
      (⟨known.start, finish, known.scenarios⟩ : FeatureResult.Timed { feature with endTime := some now })
    exact ⟨ended.start, finish, ended.features⟩
  · exact ⟨timed.start, finish, timed.features⟩

theorem ensureFeature (timed : results.Timed) (stamp : Stamp now) :
    (results.ensureFeature now).Timed := by
  unfold Results.ensureFeature
  split
  · exact timed
  · exact timed.beginFeature stamp "" []

theorem beginScenario (timed : results.Timed) (stamp : Stamp now) (card : TestCard) :
    (results.beginScenario now card).Timed := by
  unfold Results.beginScenario
  split
  · rename_i number _
    have begun := timed.updateFeature number fun feature known =>
      (⟨known.start, known.finish, fun scenario member => by
        rcases List.mem_append.1 member with old | new
        · exact known.scenarios scenario old
        · obtain rfl := List.mem_singleton.1 new
          exact ⟨stamp, nofun⟩⟩ : FeatureResult.Timed { feature with scenarios := feature.scenarios ++
            [⟨card.title, card.tags, card.steps, .running, now, none, none⟩] })
    exact ⟨begun.start, begun.finish, begun.features⟩
  · exact timed

theorem setStatus (timed : results.Timed) (status : ScenarioStatus) (error : Option String) :
    (results.setStatus status error).Timed := by
  have settled := timed.updateScenario fun scenario known =>
    (⟨known.start, known.finish⟩ : ScenarioResult.Timed { scenario with
      status := status, error := error.or scenario.error })
  unfold Results.setStatus
  split
  · exact timed
  · dsimp only
    split
    · exact settled.updateFeature _ fun feature known => ⟨known.start, known.finish, known.scenarios⟩
    · exact settled

theorem endScenario (timed : results.Timed) (stamp : Stamp now) : (results.endScenario now).Timed := by
  have finish (time : String) (member : time ∈ some now) : Stamp time :=
    Option.some.inj member ▸ stamp
  have ended := timed.updateScenario fun scenario known =>
    (⟨known.start, finish⟩ : ScenarioResult.Timed { scenario with endTime := some now })
  exact ⟨ended.start, finish, ended.features⟩

theorem collect (timed : results.Timed) (stamp : Stamp now) (event : CollectorEvent)
    (args : List Value) : (results.collect now event args).2.Timed := by
  unfold Results.collect
  split
  · split
    · exact timed.beginFeature stamp _ _
    · exact timed.started stamp
  · exact timed.endFeature stamp
  · have ready := (timed.ensureFeature stamp).started stamp
    dsimp only
    split
    · exact ready.beginScenario stamp _
    · exact ready
  · exact timed.setStatus .passed none
  · exact timed.setStatus .failed none
  · exact timed.setStatus .failed _
  · exact timed.setStatus .skipped none
  · exact timed.endScenario stamp
  · exact timed

end Results.Timed

/-- Whatever is collected is stamped. -/
theorem Results.Collected.timed {results : Results} (collected : results.Collected) : results.Timed := by
  induction collected with
  | initial => exact ⟨nofun, nofun, nofun⟩
  | collects _ dated event args ih => exact ih.collect dated.stamp event args

/-! ## Results of runs -/

/-- What may come from outside: anything quiet that leaves the results alone. -/
abbrev quietlyAside (world next : World) : Prop :=
  quietly world next ∧ next.results = world.results

/-- A step of a world leaves collected results behind. -/
theorem World.Stepped.collected {world next : World} (stepped : world.Stepped next)
    (collected : world.results.Collected) (dated : world.clock.Dated) : next.results.Collected := by
  rw [stepped.results]
  unfold World.heard?
  split
  · exact collected.collects dated _ _
  · exact collected

/-- Whatever is run, its results are collected. -/
theorem Results.Collected.of_run {clock : Moment} {passed : World.History} {world : World}
    (run : World.Run quietlyAside (World.initial clock) passed world)
    (dated : ∀ past ∈ passed, past.clock.Dated) : world.results.Collected := by
  induction run with
  | refl => exact .initial
  | @step passed world next run moved ih =>
    obtain ⟨earlier, here⟩ := List.forall_mem_append.1 dated
    have wired := (Serial.of_run (run.mono fun _ _ comes => comes.1)).wired
    exact (World.step?_stepped wired moved).collected (ih earlier) (here world List.mem_cons_self)
  | between _ between ih =>
    rcases between.calm_or with calm | comes
    · rw [calm.toFlows.alike.results]
      exact ih dated
    · rw [comes.2]
      exact ih dated

end FeatureRunner
