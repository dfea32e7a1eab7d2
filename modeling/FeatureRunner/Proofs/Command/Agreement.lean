import FeatureRunner.Proofs.Command.Summary

/-!
What the collector makes of suites agrees with what their runs answer, and what a `run` command
prints agrees with both.
-/

namespace FeatureRunner
open FeatureRunner.World FeatureRunner.Command

/-- Results tell of suites in order, feature by feature and scenario by scenario, and their counts
are those of the tests. -/
structure Results.Agrees (results : Results) (told : SuitesRan) : Prop where
  reports : Results.Report results.features told
  ended : ∀ feature ∈ results.features, ∀ scenario ∈ feature.scenarios, scenario.status ≠ .running
  total : results.total = told.tests.length
  parts : results.total =
    results.count .passed + results.count .failed + results.count .skipped

theorem Results.Report.agrees {results : Results} {told : SuitesRan}
    (reports : Results.Report results.features told) : results.Agrees told where
  reports := reports
  total := (total_eq reports).1
  parts := (total_eq reports).2
  ended feature member scenario inside := by
    have all := scenarios_report reports
    obtain ⟨number, bound, rfl⟩ :=
      List.getElem_of_mem (List.mem_flatMap.2 ⟨feature, member, inside⟩)
    exact ((List.forall₂_iff_get.1 all).2 number bound (all.length_eq ▸ bound)).ended

/-- A `run` command in a new world gets as far as its summary. Nobody is subscribed as the collector
before. -/
structure Command.Summed (config : Config) (given : List String) (workspace : Workspace)
    (arguments : Arguments) (prepared after : Workspace) : Prop
    extends Reaches config given workspace arguments prepared after where
  fresh : workspace.world.Fresh
  alone : ∀ event, (workspace.world.dispatcher.listeners event).filterMap Listener.collector? = []

/-- Suites that are run one after the other while the collector is attached: the results agree with
what their runs answer, if no listener fails, only runs and steps add tasks, and nobody but a run
emits the events of the collector. And where a command gets as far as its summary in such a way,
without its chain being detached, the summary agrees with the lines on the tests before it. -/
theorem results_agree :
    (∀ {clock : Calendar.Moment} {before passed : History} {start world : World}
      {ran : List (Suite × Outcome)}, Run quietly (World.initial clock) before start →
      start.Readied → start.Paid → start.results.features = [] → Conducted start ran passed world →
      (∀ past ∈ passed, ∀ owner act, past.act? = some (owner, act) → act.Granted) →
      (∀ past ∈ passed, past.Genuine) →
      ∃ told : SuitesRan, ran = told.map (fun (suite, endings) => suite.answered endings) ∧
        world.results.Agrees told) ∧
    ∀ {config : Config} {given : List String} {workspace prepared after : Workspace}
      {arguments : Arguments}, Summed config given workspace arguments prepared after →
      (∀ past ∈ filesPast (arguments.has "--trace") arguments.positional prepared,
        past.Orderly True) →
      (∀ past ∈ filesPast (arguments.has "--trace") arguments.positional prepared, past.Genuine) →
      ∃ (told : SuitesRan) (blocks : List (List String)) (front more : String),
        after.world.results.Agrees told ∧ Blocks (arguments.has "--trace") blocks told ∧
        (run config given workspace).2.output = front ++ printed blocks.flatten ++
          printed (summaryLines told.tests.length (testLines told.tests)) ++ more := by
  constructor
  · intro clock before passed start world ran earlier readied paid empty conducted granted genuine
    have vacant : Vacant False before start := readied.vacant earlier
    obtain ⟨_, told, features, same, reports, results⟩ := suites_reported vacant paid conducted
      (fun past member => ⟨granted past member, nofun⟩) genuine
    rw [empty, List.nil_append] at results
    exact ⟨told, same, (results ▸ reports : Results.Report _ _).agrees⟩
  · intro config given workspace prepared after arguments summed orderly genuine
    obtain ⟨told, blocks, front, more, reports, block, output⟩ :=
      summary_told summed.toReaches summed.fresh summed.alone orderly genuine
    exact ⟨told, blocks, front, more, reports.agrees, block, output⟩

/-- A step of one text. -/
def textStep (text : String) (actions : List Action) : ResolvedStep :=
  ⟨"given", text, ⟨0, ⟨"given", .placeholders ⟨text, .strict, [.literal text.toList]⟩,
    .script text ⟨[], 0, true, []⟩ false false 0 actions, ""⟩, []⟩⟩

/-- A suite with a test that fails, a pending one and one that passes. -/
def mixedSuite : Suite :=
  ⟨"mixed", "", [], [⟨"fails", [textStep "raise" [.raise .value none]], [], false⟩,
    ⟨"pends", [], [], true⟩, ⟨"passes", [textStep "work" []], [], false⟩]⟩

/-- A workspace with a feature file whose step has a definition. -/
def featureWorkspace : Workspace where
  world := .initial ⟨0, none⟩
  registry := ⟨[(textStep "work" []).found.definition], .text "strict"⟩
  tree := ⟨⟨"/", ["home"]⟩, [(["home", "file"],
    "Feature: F\n Scenario Outline: Later\n Scenario: Works\n Given work")]⟩
  home := ⟨"/", ["home"]⟩
  namedConfig := none
  stepFiles := []
  output := ""
  errors := ""
  written := []

/-- A loop in which the collector is attached. -/
def watchingWorld : World :=
  { (World.initial ⟨0, none⟩).attach with looping := true }

theorem watchingWorld_earlier : Run quietly (World.initial ⟨0, none⟩) [] watchingWorld :=
  Run.refl.between (.outside (.alters rfl))

theorem watchingWorld_readied : watchingWorld.Readied :=
  ⟨rfl, nofun, fun owner process left => by cases owner <;> cases left⟩

theorem watchingWorld_paid : watchingWorld.Paid :=
  have watched : (World.initial ⟨0, none⟩).attach.Watched := watched_attach fun _ => rfl
  ⟨fun owner process left => (by cases owner <;> cases left), watched⟩

theorem all_of_checked {passed : History} {kind : World → Prop} [DecidablePred kind]
    (checked : (passed.all fun past => decide (kind past)) = true) : ∀ past ∈ passed, kind past :=
  fun past member => of_decide_eq_true (List.all_eq_true.1 checked past member)

theorem results_agree_mixed :
    (∃ (told : SuitesRan) (outcome outcome' : Outcome) (passed : History) (world : World),
      Conducted watchingWorld [(mixedSuite, outcome), (mixedSuite, outcome')] passed world ∧
      told.length = 2 ∧ world.results.count .failed = 2 ∧ world.results.Agrees told) ∧
    ∃ (told : SuitesRan) (blocks : List (List String)) (front more : String),
      told.tests.length = 2 ∧ Blocks false blocks told ∧
      (run ⟨⟨"", []⟩, []⟩ ["file"] featureWorkspace).2.output = front ++ printed blocks.flatten ++
        printed (summaryLines told.tests.length (testLines told.tests)) ++ more := by
  constructor
  · let first := World.play 300 (watchingWorld.spawn mixedSuite.run.toProcess).1
    let second := World.play 300 (first.2.spawn mixedSuite.run.toProcess).1
    have ended : (first.2.outcome? watchingWorld.tasks.length).isSome := by decide +kernel
    have ended' : (second.2.outcome? first.2.tasks.length).isSome := by decide +kernel
    obtain ⟨outcome, ended⟩ := Option.isSome_iff_exists.1 ended
    obtain ⟨outcome', ended'⟩ := Option.isSome_iff_exists.1 ended'
    have conducted : Conducted watchingWorld [(mixedSuite, outcome), (mixedSuite, outcome')]
        (first.1 ++ second.1) second.2 := .next (.next .none (.play _ _) ended) (.play _ _) ended'
    have orderly : ∀ past ∈ first.1 ++ second.1, past.Orderly False :=
      all_of_checked (by decide +kernel)
    obtain ⟨told, same, agrees⟩ := results_agree.1 watchingWorld_earlier watchingWorld_readied
      watchingWorld_paid rfl conducted (fun past member => (orderly past member).granted)
      (all_of_checked (by decide +kernel))
    refine ⟨told, outcome, outcome', _, _, conducted, ?_, by decide +kernel, agrees⟩
    simpa using (congrArg List.length same).symm
  · let config : Config := ⟨⟨"", []⟩, []⟩
    let ready := (readRun config ["file"] featureWorkspace).2
    let arguments : Arguments := ⟨[], ["file"]⟩
    let prepared := (prepare config arguments ready.watching).2
    let after := (runFiles false ["file"] prepared).2
    have begins : ∃ formats directory, readRun config ["file"] featureWorkspace =
        (.ok (arguments, formats, directory), ready) := by
      have read : ((readRun config ["file"] featureWorkspace).1.toOption.map fun found =>
          (found.1.options, found.1.positional)) = some ([], ["file"]) := by decide +kernel
      obtain ⟨⟨⟨options, positional⟩, formats, directory⟩, known, same⟩ :=
        Option.map_eq_some_iff.1 read
      cases same
      exact ⟨formats, directory, ok_of_toOption known⟩
    obtain ⟨formats, directory, begins⟩ := begins
    have prepares : prepare config arguments ready.watching = (.ok (), prepared) :=
      ok_of_toOption (by decide +kernel)
    have runs : runFiles false ["file"] prepared = (.ok 0, after) := ok_of_toOption (by decide +kernel)
    have summed : Summed config ["file"] featureWorkspace arguments prepared after :=
      ⟨⟨⟨formats, directory, ready, begins, prepares⟩, 0, runs⟩, ⟨rfl, rfl, rfl, rfl, rfl⟩, fun _ => rfl⟩
    obtain ⟨told, blocks, front, more, agrees, block, output⟩ := results_agree.2 summed
      (all_of_checked (by decide +kernel)) (all_of_checked (by decide +kernel))
    have total : after.world.results.total = 2 := by decide +kernel
    exact ⟨told, blocks, front, more, agrees.total.symm.trans total, block, output⟩

/-- A suite whose only step emits the event at which a test has ended. -/
def announcingSuite : Suite :=
  ⟨"announcing", "", [], [⟨"passes", [textStep "announce" [.emit testFinished [.const .null]]], [], false⟩]⟩

/-- Where a step emits an event of the collector, a scenario is left running whose test has passed. -/
theorem running_after_emission : ∃ (value : Value) (passed : History) (world : World),
    Conducted watchingWorld [(announcingSuite, .ok value)] passed world ∧
    (∀ past ∈ passed, past.Orderly True) ∧ (Suite.faults value).map Option.isNone = [true] ∧
    world.results.features.map (fun feature => feature.scenarios.map (·.status)) = [[.running]] := by
  let played := World.play 300 (watchingWorld.spawn announcingSuite.run.toProcess).1
  have ended : ((played.2.outcome? watchingWorld.tasks.length).map fun outcome =>
      outcome.toOption.map fun value => (Suite.faults value).map Option.isNone) =
        some (some [true]) := by decide +kernel
  obtain ⟨outcome, ended, answered⟩ := Option.map_eq_some_iff.1 ended
  obtain ⟨value, known, well⟩ := Option.map_eq_some_iff.1 answered
  cases outcome with
  | error failure => cases known
  | ok found =>
    cases known
    exact ⟨_, _, _, .next .none (.play _ _) ended, all_of_checked (by decide +kernel), well,
      by decide +kernel⟩

/-- A suite with a single step that does nothing. -/
def workingSuite : Suite :=
  ⟨"working", "", [], [⟨"works", [textStep "work" []], [], false⟩]⟩

/-- A loop in which a listener fails that is told, behind the collector, that a test has ended. -/
def contradictedWorld : World :=
  { watchingWorld with
    dispatcher := watchingWorld.dispatcher.on testFinished (.scripted "fails")
    listeners := [("fails", .script "fails" ⟨[], 0, true, []⟩ false false 0 [.raise .value none])] }

/-- Where another listener fails at the end of a test, the results have a scenario as passed whose test
has failed. -/
theorem passed_though_failed : ∃ (value : Value) (passed : History) (world : World),
    Conducted contradictedWorld [(workingSuite, .ok value)] passed world ∧
    contradictedWorld.Watched ∧ (Suite.faults value).map Option.isSome = [true] ∧
    world.results.features.map (fun feature => feature.scenarios.map (·.status)) = [[.passed]] := by
  let played := World.play 300 (contradictedWorld.spawn workingSuite.run.toProcess).1
  have ended : ((played.2.outcome? contradictedWorld.tasks.length).map fun outcome =>
      outcome.toOption.map fun value => (Suite.faults value).map Option.isSome) =
        some (some [true]) := by decide +kernel
  obtain ⟨outcome, ended, answered⟩ := Option.map_eq_some_iff.1 ended
  obtain ⟨value, known, failed⟩ := Option.map_eq_some_iff.1 answered
  have watched : contradictedWorld.Watched := by
    intro event
    have before := watchingWorld_paid.watched event
    change ((watchingWorld.dispatcher.on _ _).listeners event).filterMap _ = _
    rw [listeners_on]
    split
    · rename_i same
      simpa [List.filterMap_cons, Listener.collector?, same] using before
    · exact before
  cases outcome with
  | error failure => cases known
  | ok found =>
    cases known
    exact ⟨_, _, _, .next .none (.play _ _) ended, watched, failed, by decide +kernel⟩

end FeatureRunner
