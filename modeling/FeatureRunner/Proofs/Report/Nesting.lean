import FeatureRunner.Proofs.Command.Agreement
import FeatureRunner.Proofs.Report.Totals
import FeatureRunner.Proofs.Results.Succession
import Mathlib.Algebra.Ring.Int.Defs

/-!
Times in the report on what has been run. A report gives seconds, each the floating-point number for
an exact number of microseconds. Those of the tests of a suite fit into the time of the suite, and
those of the suites into the time of the whole; but tests outside every suite stand in a suite that
is never ended, so that it gives no time at all.

Main statement: `Junit.times_nest`.
-/

namespace FeatureRunner
open FeatureRunner.Calendar FeatureRunner.World

/-! ## Microseconds -/

/-- The microseconds of the moment that a text is read as. -/
def microsecondsOf (text : String) : Int :=
  match Moment.read text with
  | .ok moment => moment.microseconds
  | .error _ => 0

/-- How long something has lasted, in microseconds; no time as long as it has not ended. -/
def elapsed (start : String) : Option String → Int
  | none => 0
  | some finish => microsecondsOf finish - microsecondsOf start

def ScenarioResult.elapsed (scenario : ScenarioResult) : Int :=
  FeatureRunner.elapsed scenario.startTime scenario.endTime

def FeatureResult.elapsed (feature : FeatureResult) : Int :=
  FeatureRunner.elapsed feature.startTime feature.endTime

/-- How long the whole has lasted. What is not known yet is the present. -/
def Results.elapsed (now : String) (results : Results) : Int :=
  FeatureRunner.elapsed (results.startTime.getD now) (some (results.endTime.getD now))

/-- Times nest: none is negative, and each is at least the sum of those within it, unless it is that
of an untitled feature that has not ended, which is no time at all. -/
structure Results.Nest (now : String) (results : Results) : Prop where
  whole : 0 ≤ results.elapsed now ∧
    (results.features.map FeatureResult.elapsed).sum ≤ results.elapsed now
  suites : ∀ feature ∈ results.features, 0 ≤ feature.elapsed ∧
    ((feature.scenarios.map ScenarioResult.elapsed).sum ≤ feature.elapsed ∨
      feature.feature = "" ∧ feature.endTime = none)
  cases : ∀ feature ∈ results.features, ∀ scenario ∈ feature.scenarios, 0 ≤ scenario.elapsed

section Spans

theorem Stamped.microseconds {text : String} {time : Nat} (stamped : Stamped text time) :
    microsecondsOf text = time := by
  obtain ⟨moment, dated, rfl, rfl⟩ := stamped
  simp [microsecondsOf, Moment.read_text dated]

theorem Lasts.elapsed {start : String} {finish : Option String} {span : Nat}
    (lasts : Lasts start finish span) : elapsed start finish = span := by
  cases lasts with
  | «open» => rfl
  | ended begun ended =>
    rw [FeatureRunner.elapsed, begun.microseconds, ended.microseconds]
    omega

/-- A sum of spans is that of what they are the spans of. -/
theorem sum_of_spans {α : Type} {items : List α} {spans : List Nat} {holds : α → Nat → Prop}
    {measure : α → Int} (each : List.Forall₂ holds items spans)
    (known : ∀ item span, holds item span → measure item = span) :
    (items.map measure).sum = spans.sum := by
  induction each with
  | nil => rfl
  | cons first _ ih => simp [known _ _ first, ih]

theorem exists_span {α : Type} {items : List α} {spans : List Nat} {holds : α → Nat → Prop}
    (each : List.Forall₂ holds items spans) : ∀ item ∈ items, ∃ span, holds item span := by
  induction each with
  | nil => exact nofun
  | cons first _ ih => exact List.forall_mem_cons.2 ⟨⟨_, first⟩, ih⟩

/-- What a collector has collected in order nests. -/
theorem Results.Follows.nests {period : Period} {time : Nat} {results : Results}
    (follows : Results.Follows period time results) (free : period = .between ∨ period = .alone)
    {now : Moment} (dated : now.Dated) (passes : time ≤ now.microseconds) :
    results.Nest now.text := by
  obtain ⟨whole, spans, lasts, nest, fits⟩ := follows.nest free dated passes
  constructor
  case whole =>
    have own : results.elapsed now.text = whole := lasts.elapsed
    have total : (results.features.map FeatureResult.elapsed).sum = spans.sum :=
      sum_of_spans nest fun _ _ nests => nests.lasts.elapsed
    rw [own, total]
    exact ⟨Int.natCast_nonneg whole, by exact_mod_cast fits⟩
  case suites =>
    intro feature member
    obtain ⟨span, nests⟩ := exists_span nest feature member
    obtain ⟨inner, each, fits⟩ := nests.inside
    have own : feature.elapsed = span := nests.lasts.elapsed
    have total : (feature.scenarios.map ScenarioResult.elapsed).sum = inner.sum :=
      sum_of_spans each fun _ _ lasts => lasts.elapsed
    rw [own, total]
    exact ⟨Int.natCast_nonneg span, fits.imp_left fun fits => by exact_mod_cast fits⟩
  case cases =>
    intro feature member scenario member'
    obtain ⟨span, nests⟩ := exists_span nest feature member
    obtain ⟨inner, each, -⟩ := nests.inside
    obtain ⟨span, lasts⟩ := exists_span each scenario member'
    have own : scenario.elapsed = span := lasts.elapsed
    rw [own]
    exact Int.natCast_nonneg span

theorem Results.Follows.collected {period : Period} {time : Nat} {results : Results}
    (follows : Results.Follows period time results) : results.Collected := by
  induction follows with
  | initial => exact .initial
  | later _ _ ih => exact ih
  | hears _ dated _ ih => exact ih.collects dated _ _

end Spans

/-! ## What a report gives -/

namespace Junit

/-- The text of the time from a start to an end: seconds as the floating-point number that is closest
to the exact microseconds, and a plain zero where there is no end. -/
def secondsText (start : String) (finish : Option String) : String :=
  if finish.isSome then (Value.float (secondsOf (elapsed start finish))).display else "0"

/-- The text of the time that an element gives. -/
def Node.time? (node : Node) : Option String :=
  node.tag.attributes.lookup "time"

/-- An element gives the time of some results, and those within it give the times of their features
and scenarios. -/
structure Node.Times (now : String) (results : Results) (root : Node) : Prop where
  whole : root.time? =
    some (secondsText (results.startTime.getD now) (some (results.endTime.getD now)))
  suites : (root.named "testsuite").map Node.time? = results.features.map fun feature =>
    some (secondsText feature.startTime feature.endTime)
  cases : (root.named "testsuite").map (fun suite => (suite.named "testcase").map Node.time?) =
    results.features.map fun feature => feature.scenarios.map fun scenario =>
      some (secondsText scenario.startTime scenario.endTime)

theorem timeText_eq {start : String} {finish : Option String} (stamp : Stamp start)
    (stamp' : ∀ time ∈ finish, Stamp time) : timeText start finish = secondsText start finish := by
  cases finish with
  | none =>
    have zero : spanned start none = .int 0 := by simp [spanned, duration, Value.truthy, Except.toOption]
    rw [timeText, zero]
    rfl
  | some time =>
    obtain ⟨moment, dated, rfl⟩ := stamp
    obtain ⟨moment', dated', rfl⟩ := stamp' time rfl
    simp [timeText, spanned, duration_text dated dated', Except.toOption, secondsText, elapsed,
      dated.stamped.microseconds, dated'.stamped.microseconds]

theorem suite_cases (feature : FeatureResult) : (suiteNode feature).named "testcase" =
    feature.scenarios.map (caseNode feature.feature) := by
  have own (scenario : ScenarioResult) : (caseNode feature.feature scenario).named "testcase" =
      [caseNode feature.feature scenario] := by
    rw [caseNode, Node.named_mk, standingNodes]
    cases scenario.status <;> simp [caseTag, Node.named_mk]
  rw [suiteNode, Node.named_mk, List.flatMap_map]
  simp [suiteTag, own, List.map_eq_flatMap]

theorem root_times {now : String} {results : Results} (stamp : Stamp now) (timed : results.Timed) :
    (rootNode now results).Times now results where
  whole := congrArg some (timeText_eq (timed.start_getD stamp) (timed.finish_getD stamp))
  suites := by
    rw [root_testsuite, List.map_map]
    refine List.map_congr_left fun feature member => congrArg some ?_
    have timed := timed.features feature member
    exact timeText_eq timed.start timed.finish
  cases := by
    rw [root_testsuite, List.map_map]
    refine List.map_congr_left fun feature member => ?_
    change ((suiteNode feature).named "testcase").map _ = _
    rw [suite_cases, List.map_map]
    refine List.map_congr_left fun scenario member' => congrArg some ?_
    have timed := (timed.features feature member).scenarios scenario member'
    exact timeText_eq timed.start timed.finish

/-- The elements of a report give the times of the results that it is on. -/
theorem report_times {now : Moment} {results : Results} (dated : now.Dated) (timed : results.Timed)
    (directory : Path) :
    ∃ file root, generateReport now directory (results.value now.text) "junit" = .ok file ∧
      elementsOf file.content = some [root] ∧ root.Times now.text results := by
  obtain ⟨file, generated, content⟩ := report_eq now directory dated.stamp timed
  exact ⟨file, rootNode now.text results, generated, elementsOf_report content,
    root_times dated.stamp timed⟩

/-- Whatever suites and single tests are run one after the other while a collector is attached, and
whatever their steps, helpers and listeners do: as long as nobody else emits the events of the
collector, no listener fails and the clock does not go back, the times in the report are those of the
results, exact to the microsecond, and they nest. -/
theorem times_nest {clock : Moment} {before passed : History} {start world : World}
    {ran : List Undertaking} (earlier : Run quietly (World.initial clock) before start)
    (watched : start.Watched) (discreet : start.Discreet)
    (quiet : ∀ owner process, start.process? owner = some process → process.Obeys hushed)
    (fresh : start.results = .initial) (succession : Succession start ran passed world)
    (punctual : ∀ past ∈ passed, past.Punctual) (dated : world.clock.Dated) (directory : Path) :
    ∃ file root, generateReport world.clock directory (world.results.value world.now) "junit" =
        .ok file ∧
      elementsOf file.content = some [root] ∧ root.Times world.now world.results ∧
      world.results.Nest world.now := by
  obtain ⟨period, free, follows⟩ :=
    succession.follows earlier watched discreet quiet fresh punctual
  obtain ⟨file, root, generated, elements, times⟩ :=
    report_times dated follows.collected.timed directory
  exact ⟨file, root, generated, elements, times, follows.nests free dated (Nat.le_refl _)⟩

/-- A test whose only step takes a second. -/
def lastingTest : Test :=
  ⟨"lasts", [textStep "time passes" [.advance 1000000]], [], false⟩

/-- A suite of two tests that take a second each. -/
def lastingSuite : Suite :=
  ⟨"lasting", "", [], [lastingTest, lastingTest]⟩

theorem watchingWorld_discreet : watchingWorld.Discreet :=
  ⟨nofun, nofun⟩

theorem watchingWorld_hushed (owner : Owner) (process : Process)
    (left : watchingWorld.process? owner = some process) : process.Obeys hushed := by
  cases owner <;> cases left

theorem times_nest_lasting : ∃ (passed : History) (world : World),
    Succession watchingWorld [.suite lastingSuite, .test lastingTest] passed world ∧
    world.results.features.map FeatureResult.elapsed = [2000000, 0] ∧
    ∃ file root, generateReport world.clock ⟨"", ["reports"]⟩ (world.results.value world.now) "junit" =
        .ok file ∧
      elementsOf file.content = some [root] ∧ root.Times world.now world.results ∧
      world.results.Nest world.now := by
  let begun := (watchingWorld.spawn (Undertaking.suite lastingSuite).run.toProcess).1
  let played := World.play 300 begun
  let closed := { played.2 with looping := false }
  have ended : (played.2.outcome? watchingWorld.tasks.length).isSome := by decide +kernel
  obtain ⟨outcome, ended⟩ := Option.isSome_iff_exists.1 ended
  have first : Succession watchingWorld [.suite lastingSuite] played.1 played.2 :=
    .next .none (.suite lastingSuite) rfl (.play 300 begun) ended
  have left : Succession watchingWorld [.suite lastingSuite] played.1 closed :=
    .pause first (pausing_looping _ false)
  let last := Undertaking.test lastingTest
  have finished : (closed.loopEnd last.run).Finished := by
    unfold Finished
    decide +kernel
  have succession : Succession watchingWorld [.suite lastingSuite, last]
      (played.1 ++ closed.loopPast last.run) (closed.runLoop last.run).2 := .alone left last rfl finished
  exact ⟨_, _, succession, by decide +kernel, times_nest watchingWorld_earlier watchingWorld_paid.watched
    watchingWorld_discreet watchingWorld_hushed rfl succession (all_of_checked (by decide +kernel))
    (by decide +kernel) ⟨"", ["reports"]⟩⟩

/-- The report on a single test that takes a second gives no time for the suite that it stands in. -/
theorem times_exceeded : ∃ (passed : History) (world : World),
    Succession watchingWorld [.test lastingTest] passed world ∧
    (∀ past ∈ passed, past.Punctual) ∧
    ∃ file root, generateReport world.clock ⟨"", ["reports"]⟩ (world.results.value world.now) "junit" =
        .ok file ∧
      elementsOf file.content = some [root] ∧
      (root.named "testsuite").map Node.time? = [some "0"] ∧
      (root.named "testsuite").map (fun suite => (suite.named "testcase").map Node.time?) =
        [[some "1.0"]] := by
  let begun := (watchingWorld.spawn (Undertaking.test lastingTest).run.toProcess).1
  let played := World.play 300 begun
  have ended : (played.2.outcome? watchingWorld.tasks.length).isSome := by decide +kernel
  obtain ⟨outcome, ended⟩ := Option.isSome_iff_exists.1 ended
  have succession : Succession watchingWorld [.test lastingTest] played.1 played.2 :=
    .next .none (.test lastingTest) rfl (.play 300 begun) ended
  have punctual : ∀ past ∈ played.1, past.Punctual := all_of_checked (by decide +kernel)
  obtain ⟨_, _, follows⟩ := succession.follows watchingWorld_earlier watchingWorld_paid.watched
    watchingWorld_discreet watchingWorld_hushed rfl punctual
  have dated : played.2.clock.Dated := by decide +kernel
  obtain ⟨file, root, generated, elements, times⟩ :=
    report_times dated follows.collected.timed ⟨"", ["reports"]⟩
  refine ⟨_, _, succession, punctual, file, root, generated, elements, times.suites.trans ?_,
    times.cases.trans ?_⟩
  · decide +kernel
  · decide +kernel

end Junit

end FeatureRunner
