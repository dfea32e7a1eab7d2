import FeatureRunner.Proofs.Calendar.Text
import FeatureRunner.Proofs.Results.Collect
import Mathlib.Algebra.Order.Ring.Nat

/-!
How collected times nest. As long as a collector hears of suites and tests in their order, and its
clock does not go back, the tests of each suite that has ended fit into its time, and all suites
together into the time of the whole. What was opened for tests outside every suite never ends.

Main statement: `Results.Follows.nest`.
-/

namespace FeatureRunner
open FeatureRunner.Calendar

/-! ## The order of events -/

/-- How far things are for the collector: no suite is being run, one has begun but none of its tests
has, one of its tests has begun, or a test outside every suite has. -/
inductive Period
  | between
  | begun
  | inside
  | alone
  deriving DecidableEq

/-- An event that tells how a test ends. -/
def CollectorEvent.Closing : CollectorEvent → Prop
  | testPassed | testFailed | testSkipped | testFinished => True
  | suiteBefore | suiteAfter | testStarted => False

/-- A test has begun and no suite has ended since. -/
def Period.Testing (period : Period) : Prop :=
  period = inside ∨ period = alone

/-- What may be heard in a period, and the period that it leads to. -/
inductive Period.Hears : Period → Due → Period → Prop
  | suite {period : Period} (free : period = between ∨ period = alone) (card : SuiteCard) :
      Hears period (.suiteBefore, [.suite card]) begun
  | test {period : Period} (within : period = begun ∨ period = inside) (card : TestCard) :
      Hears period (.testStarted, [.test card]) inside
  | single {period : Period} (free : period = between ∨ period = alone) (card : TestCard) :
      Hears period (.testStarted, [.test card]) alone
  | closing {period : Period} (testing : period.Testing) {event : CollectorEvent}
      (closing : event.Closing) (args : List Value) : Hears period (event, args) period
  | after {period : Period} (within : period = begun ∨ period = inside) (value : Value) :
      Hears period (.suiteAfter, [value]) between

/-- What a new collector has collected in a period, by a time, if its clock never went back. -/
inductive Results.Follows : Period → Nat → Results → Prop
  | initial (time : Nat) : Follows .between time .initial
  | later {period : Period} {time time' : Nat} {results : Results} (before : Follows period time results)
      (passes : time ≤ time') : Follows period time' results
  | hears {period period' : Period} {results : Results} {now : Moment} {due : Due}
      (before : Follows period now.microseconds results) (dated : now.Dated)
      (hears : period.Hears due period') :
      Follows period' now.microseconds (results.collect now.text due.1 due.2).2

/-! ## Times -/

/-- The text of a moment, given in microseconds. -/
def Stamped (text : String) (time : Nat) : Prop :=
  ∃ moment : Moment, moment.Dated ∧ moment.microseconds = time ∧ text = moment.text

theorem Calendar.Moment.Dated.stamped {moment : Moment} (dated : moment.Dated) :
    Stamped moment.text moment.microseconds :=
  ⟨moment, dated, rfl, rfl⟩

/-- What lasts from a start to an end, in microseconds. Without an end it is nothing. -/
inductive Lasts : String → Option String → Nat → Prop
  | open {start : String} {time : Nat} (begun : Stamped start time) : Lasts start none 0
  | ended {start finish : String} {time span : Nat} (begun : Stamped start time)
      (ended : Stamped finish (time + span)) : Lasts start (some finish) span

/-- The scenarios last so many microseconds each. -/
abbrev Spans (scenarios : List ScenarioResult) (spans : List Nat) : Prop :=
  List.Forall₂ (fun scenario span => Lasts scenario.startTime scenario.endTime span) scenarios spans

/-- A feature lasts so long, and as long as its scenarios together unless it is untitled and has not
ended. -/
structure FeatureResult.Nests (feature : FeatureResult) (span : Nat) : Prop where
  lasts : Lasts feature.startTime feature.endTime span
  inside : ∃ spans, Spans feature.scenarios spans ∧
    (spans.sum ≤ span ∨ feature.feature = "" ∧ feature.endTime = none)

/-- Features nest and last so long together, which is no longer than the whole has lasted. -/
structure Results.Tallied (results : Results) (features : List FeatureResult) (first total now : Nat) :
    Prop where
  start : ∃ text, results.startTime = some text ∧ Stamped text first
  nest : ∃ spans, List.Forall₂ FeatureResult.Nests features spans ∧ spans.sum = total
  finish : (∃ text last, results.endTime = some text ∧ Stamped text last ∧ first + total ≤ last ∧
    last ≤ now) ∨ results.endTime = none ∧ total = 0
  fits : first + total ≤ now

/-- The last feature is open, since some time, behind features that nest. -/
structure Results.Opened (results : Results) (before : List FeatureResult) (feature : FeatureResult)
    (first total since now : Nat) : Prop extends results.Within before feature,
    results.Tallied before first total now where
  begun : Stamped feature.startTime since
  unended : feature.endTime = none
  order : first + total ≤ since ∧ since ≤ now

/-- The scenarios of the open feature last no longer than it does so far. The last one may be open. -/
inductive Results.Cases (results : Results) (before : List FeatureResult) (feature : FeatureResult)
    (since now : Nat) : Prop
  | closed {spans : List Nat} (each : Spans feature.scenarios spans)
      (fits : since + spans.sum ≤ now) (none : results.openScenario = none)
  | running {rest : FeatureResult} {scenario : ScenarioResult} {spans : List Nat} {time : Nat}
      (inside : results.Inside before rest scenario)
      (same : feature = { rest with scenarios := rest.scenarios ++ [scenario] })
      (each : Spans rest.scenarios spans) (begun : Stamped scenario.startTime time)
      (unended : scenario.endTime = none) (fits : since + spans.sum ≤ time) (past : time ≤ now)

/-- What is known of results in a period. -/
def Results.Kept (results : Results) (now : Nat) : Period → Prop
  | .between => results.openFeature = none ∧
    (results.features = [] ∧ results.startTime = none ∧ results.endTime = none ∨
      ∃ first total, results.Tallied results.features first total now)
  | .begun => ∃ before feature first total since,
    results.Opened before feature first total since now ∧ feature.scenarios = []
  | .inside => ∃ before feature first total since,
    results.Opened before feature first total since now ∧ results.Cases before feature since now
  | .alone => ∃ before feature first total since,
    results.Opened before feature first total since now ∧ results.Cases before feature since now ∧
      feature.feature = ""

/-! ## What stays as it is -/

section Fields

variable {results results' : Results} {features before : List FeatureResult} {feature : FeatureResult}
  {first total since now time : Nat}

theorem Results.Tallied.congr (tallied : results.Tallied features first total now)
    (start : results'.startTime = results.startTime) (finish : results'.endTime = results.endTime) :
    results'.Tallied features first total now where
  start := start ▸ tallied.start
  nest := tallied.nest
  finish := finish ▸ tallied.finish
  fits := tallied.fits

theorem Results.Tallied.later (tallied : results.Tallied features first total now)
    (passes : now ≤ time) : results.Tallied features first total time where
  start := tallied.start
  nest := tallied.nest
  finish := by
    rcases tallied.finish with ⟨text, last, known, stamped, fits, past⟩ | none
    · exact .inl ⟨text, last, known, stamped, fits, past.trans passes⟩
    · exact .inr none
  fits := tallied.fits.trans passes

/-- What ends now is the last that has ended. -/
theorem Results.Tallied.ends {text : String} (tallied : results.Tallied features first total now)
    (stamped : Stamped text now) (start : results'.startTime = results.startTime)
    (finish : results'.endTime = some text) : results'.Tallied features first total now where
  start := start ▸ tallied.start
  nest := tallied.nest
  finish := .inl ⟨text, now, finish, stamped, tallied.fits, Nat.le_refl _⟩
  fits := tallied.fits

theorem Results.Opened.later (opened : results.Opened before feature first total since now)
    (passes : now ≤ time) : results.Opened before feature first total since time where
  toWithin := opened.toWithin
  toTallied := opened.toTallied.later passes
  begun := opened.begun
  unended := opened.unended
  order := ⟨opened.order.1, opened.order.2.trans passes⟩

theorem Results.Cases.later (cases : results.Cases before feature since now) (passes : now ≤ time) :
    results.Cases before feature since time := by
  cases cases with
  | closed each fits none => exact .closed each (fits.trans passes) none
  | running inside same each begun unended fits past =>
    exact .running inside same each begun unended fits (past.trans passes)

theorem Results.Kept.later {period : Period} (kept : results.Kept now period)
    (passes : now ≤ time) : results.Kept time period := by
  cases period with
  | between =>
    obtain ⟨free, fresh | ⟨first, total, tallied⟩⟩ := kept
    · exact ⟨free, .inl fresh⟩
    · exact ⟨free, .inr ⟨first, total, tallied.later passes⟩⟩
  | begun =>
    obtain ⟨before, feature, first, total, since, opened, none⟩ := kept
    exact ⟨before, feature, first, total, since, opened.later passes, none⟩
  | inside =>
    obtain ⟨before, feature, first, total, since, opened, cases⟩ := kept
    exact ⟨before, feature, first, total, since, opened.later passes, cases.later passes⟩
  | alone =>
    obtain ⟨before, feature, first, total, since, opened, cases, untitled⟩ := kept
    exact ⟨before, feature, first, total, since, opened.later passes, cases.later passes, untitled⟩

/-- What the scenarios of the open feature last. -/
theorem Results.Cases.spans (cases : results.Cases before feature since now) :
    ∃ spans, Spans feature.scenarios spans ∧ since + spans.sum ≤ now := by
  cases cases with
  | closed each fits none => exact ⟨_, each, fits⟩
  | @running rest scenario spans time inside same each begun unended fits past =>
    subst same
    refine ⟨spans ++ [0], List.rel_append each (.cons ?_ .nil), ?_⟩
    · exact unended ▸ .open begun
    · rw [List.sum_append, List.sum_singleton, Nat.add_zero]
      exact fits.trans past

/-- A feature that stands for tests outside every suite is left open. -/
theorem Results.Opened.left (opened : results.Opened before feature first total since now)
    (cases : results.Cases before feature since now) (untitled : feature.feature = "") :
    results.Tallied results.features first total now where
  start := opened.start
  nest := by
    obtain ⟨spans, nest, sum⟩ := opened.nest
    obtain ⟨inner, each, -⟩ := cases.spans
    have lasts : Lasts feature.startTime feature.endTime 0 := opened.unended ▸ .open opened.begun
    refine ⟨spans ++ [0], ?_, by simpa using sum⟩
    rw [opened.features]
    exact List.rel_append nest (.cons ⟨lasts, inner, each, .inr ⟨untitled, opened.unended⟩⟩ .nil)
  finish := opened.finish
  fits := opened.fits

end Fields

/-! ## Events -/

namespace Results

variable {results : Results} {before : List FeatureResult} {feature : FeatureResult}
  {first total since : Nat} {now : Moment}

/-- A feature begins behind others. -/
theorem Tallied.opens (tallied : results.Tallied results.features first total now.microseconds)
    (dated : now.Dated) (title : String) (tags : List String) :
    (results.beginFeature now.text title tags).Opened results.features
      ⟨title, tags, [], false, now.text, none⟩ first total now.microseconds now.microseconds where
  features := rfl
  openFeature := rfl
  toTallied := by
    obtain ⟨text, known, stamped⟩ := tallied.start
    exact tallied.congr (by simp [beginFeature, started, known]) rfl
  begun := dated.stamped
  unended := rfl
  order := ⟨tallied.fits, Nat.le_refl _⟩

/-- The first feature begins. -/
theorem opens_first (dated : now.Dated) (empty : results.features = []) (start : results.startTime = none)
    (finish : results.endTime = none) (title : String) (tags : List String) :
    (results.beginFeature now.text title tags).Opened []
      ⟨title, tags, [], false, now.text, none⟩ now.microseconds 0 now.microseconds now.microseconds where
  features := by simp [beginFeature, started, empty]
  openFeature := by simp [beginFeature, empty]
  start := ⟨now.text, by simp [beginFeature, started, start], dated.stamped⟩
  nest := ⟨[], .nil, rfl⟩
  finish := .inr ⟨finish, rfl⟩
  fits := Nat.le_refl _
  begun := dated.stamped
  unended := rfl
  order := ⟨Nat.le_refl _, Nat.le_refl _⟩

/-- Where no suite is being run, a feature may begin. -/
theorem Kept.opens {period : Period} (kept : results.Kept now.microseconds period)
    (free : period = .between ∨ period = .alone) (dated : now.Dated) (title : String)
    (tags : List String) : ∃ before first total,
      (results.beginFeature now.text title tags).Opened before
        ⟨title, tags, [], false, now.text, none⟩ first total now.microseconds now.microseconds := by
  rcases free with rfl | rfl
  · obtain ⟨-, ⟨empty, start, finish⟩ | ⟨first, total, tallied⟩⟩ := kept
    · exact ⟨_, _, _, opens_first dated empty start finish title tags⟩
    · exact ⟨_, _, _, tallied.opens dated title tags⟩
  · obtain ⟨before, feature, first, total, since, opened, cases, untitled⟩ := kept
    exact ⟨_, _, _, (opened.left cases untitled).opens dated title tags⟩

/-- A test begins in the open feature. -/
theorem Opened.begins (opened : results.Opened before feature first total since now.microseconds)
    (dated : now.Dated) {spans : List Nat} (each : Spans feature.scenarios spans)
    (fits : since + spans.sum ≤ now.microseconds) (card : TestCard) :
    let next := (results.collect now.text .testStarted [.test card]).2
    ∃ feature', next.Opened before feature' first total since now.microseconds ∧
      next.Cases before feature' since now.microseconds ∧ feature'.feature = feature.feature := by
  intro next
  have inside : next.Inside before feature _ := opened.toWithin.begin now.text card
  refine ⟨_, ⟨inside.toWithin, opened.toTallied.congr ?_ ?_, opened.begun, opened.unended,
    opened.order⟩, .running inside rfl each dated.stamped rfl fits (Nat.le_refl _), rfl⟩
  · obtain ⟨text, known, -⟩ := opened.start
    simp [next, collect, ensureFeature, started, beginScenario, opened.openFeature, updateFeature, known]
  · simp [next, collect, ensureFeature, started, beginScenario, opened.openFeature, updateFeature]

theorem setStatus_fields (results : Results) (status : ScenarioStatus) (error : Option String) :
    (results.setStatus status error).startTime = results.startTime ∧
      (results.setStatus status error).endTime = results.endTime := by
  unfold setStatus updateScenario updateFeature
  split
  · exact ⟨rfl, rfl⟩
  · split <;> dsimp only <;> split <;> exact ⟨rfl, rfl⟩

/-- A verdict changes no times. -/
theorem Opened.settles (opened : results.Opened before feature first total since now.microseconds)
    (cases : results.Cases before feature since now.microseconds) (status : ScenarioStatus)
    (error : Option String) :
    ∃ feature', (results.setStatus status error).Opened before feature' first total since
        now.microseconds ∧
      (results.setStatus status error).Cases before feature' since now.microseconds ∧
      feature'.feature = feature.feature := by
  cases cases with
  | closed each fits none =>
    have same : results.setStatus status error = results := by simp [setStatus, none]
    rw [same]
    exact ⟨feature, opened, .closed each fits none, rfl⟩
  | @running rest scenario spans time inside same each begun unended fits past =>
    subst same
    have settled := inside.settle status error
    obtain ⟨start, finish⟩ := setStatus_fields results status error
    exact ⟨_, ⟨settled.toWithin, opened.toTallied.congr start finish, opened.begun, opened.unended,
      opened.order⟩, .running settled rfl each begun unended fits past, rfl⟩

/-- A test has finished. -/
theorem Opened.finishes (opened : results.Opened before feature first total since now.microseconds)
    (cases : results.Cases before feature since now.microseconds) (dated : now.Dated) :
    ∃ feature', (results.endScenario now.text).Opened before feature' first total since
        now.microseconds ∧
      (results.endScenario now.text).Cases before feature' since now.microseconds ∧
      feature'.feature = feature.feature := by
  have start : (results.endScenario now.text).startTime = results.startTime := by
    unfold endScenario updateScenario updateFeature
    split <;> rfl
  have tallied := opened.toTallied.ends dated.stamped start rfl
  cases cases with
  | closed each fits none =>
    have features : (results.endScenario now.text).features = results.features ∧
        (results.endScenario now.text).openFeature = results.openFeature := by
      simp [endScenario, updateScenario, none]
    exact ⟨feature, ⟨⟨features.1.trans opened.features, features.2.trans opened.openFeature⟩, tallied,
      opened.begun, opened.unended, opened.order⟩, .closed each fits rfl, rfl⟩
  | @running rest scenario spans time inside same each begun unended fits past =>
    subst same
    have within := inside.finish now.text .null
    obtain ⟨span, gap⟩ := Nat.exists_eq_add_of_le past
    have lasts : Lasts scenario.startTime (some now.text) span :=
      .ended begun (gap ▸ dated.stamped)
    refine ⟨_, ⟨within, tallied, opened.begun, opened.unended, opened.order⟩,
      .closed (List.rel_append each (.cons lasts .nil)) ?_ rfl, rfl⟩
    rw [List.sum_append, List.sum_singleton, gap]
    omega

/-- A suite is over. -/
theorem Opened.ends (opened : results.Opened before feature first total since now.microseconds)
    (dated : now.Dated) {spans : List Nat} (each : Spans feature.scenarios spans)
    (fits : since + spans.sum ≤ now.microseconds) (value : Value) :
    (results.collect now.text .suiteAfter [value]).2.Kept now.microseconds .between := by
  obtain ⟨span, gap⟩ := Nat.exists_eq_add_of_le opened.order.2
  have nests : FeatureResult.Nests { feature with endTime := some now.text } span :=
    ⟨.ended opened.begun (gap ▸ dated.stamped), spans, each, .inl (by omega)⟩
  have features := opened.toWithin.close now.text value
  have start : (results.collect now.text .suiteAfter [value]).2.startTime = results.startTime := by
    simp [collect, endFeature, opened.openFeature, updateFeature]
  refine ⟨rfl, .inr ⟨first, total + span, start ▸ opened.start, ?_, .inl ⟨now.text,
    now.microseconds, rfl, dated.stamped, ?_, Nat.le_refl _⟩, ?_⟩⟩
  · obtain ⟨earlier, nest, sum⟩ := opened.nest
    refine ⟨earlier ++ [span], features ▸ List.rel_append nest (.cons nests .nil), ?_⟩
    rw [List.sum_append, List.sum_singleton, sum]
  · have order := opened.order.1
    omega
  · have order := opened.order.1
    omega

/-- What an event of a test's end changes: the times of no scenario but the open one. -/
theorem collect_closing {event : CollectorEvent} (closing : event.Closing) (now : String)
    (args : List Value) (results : Results) :
    (results.collect now event args).2 = results ∨
    (results.collect now event args).2 = results.endScenario now ∨
    ∃ status error, (results.collect now event args).2 = results.setStatus status error := by
  unfold collect
  split
  · exact closing.elim
  · exact closing.elim
  · exact closing.elim
  · exact .inr (.inr ⟨.passed, none, rfl⟩)
  · exact .inr (.inr ⟨.failed, none, rfl⟩)
  · exact .inr (.inr ⟨.failed, _, rfl⟩)
  · exact .inr (.inr ⟨.skipped, none, rfl⟩)
  · exact .inr (.inl rfl)
  · exact .inl rfl

theorem Opened.closes (opened : results.Opened before feature first total since now.microseconds)
    (cases : results.Cases before feature since now.microseconds) (dated : now.Dated)
    {event : CollectorEvent} (closing : event.Closing) (args : List Value) :
    let next := (results.collect now.text event args).2
    ∃ feature', next.Opened before feature' first total since now.microseconds ∧
      next.Cases before feature' since now.microseconds ∧ feature'.feature = feature.feature := by
  intro next
  rcases collect_closing closing now.text args results with same | same | ⟨status, error, same⟩
  · rw [show next = results from same]
    exact ⟨feature, opened, cases, rfl⟩
  · rw [show next = _ from same]
    exact opened.finishes cases dated
  · rw [show next = _ from same]
    exact opened.settles cases status error

/-- A test that begins outside every suite begins in a feature that is opened for it. -/
theorem collect_single (free : results.openFeature = none) (now : String) (card : TestCard) :
    (results.collect now .testStarted [.test card]).2 =
      ((results.beginFeature now "" []).collect now .testStarted [.test card]).2 := by
  simp [collect, ensureFeature, free, beginFeature]

/-- Whatever is heard next in order, what is known of results stays known. -/
theorem Kept.hears {period period' : Period} {due : Due}
    (kept : results.Kept now.microseconds period) (dated : now.Dated)
    (hears : period.Hears due period') :
    (results.collect now.text due.1 due.2).2.Kept now.microseconds period' := by
  cases hears with
  | suite free card =>
    obtain ⟨before, first, total, opened⟩ := kept.opens free dated card.title card.tags
    exact ⟨before, _, first, total, _, opened, rfl⟩
  | test within card =>
    rcases within with rfl | rfl
    · obtain ⟨before, feature, first, total, since, opened, none⟩ := kept
      have each : Spans feature.scenarios [] := none ▸ .nil
      obtain ⟨feature', opened, cases, -⟩ := opened.begins dated each opened.order.2 card
      exact ⟨before, feature', first, total, since, opened, cases⟩
    · obtain ⟨before, feature, first, total, since, opened, cases⟩ := kept
      obtain ⟨spans, each, fits⟩ := cases.spans
      obtain ⟨feature', opened, cases, -⟩ := opened.begins dated each fits card
      exact ⟨before, feature', first, total, since, opened, cases⟩
  | single free card =>
    rcases free with rfl | rfl
    · obtain ⟨before, first, total, opened⟩ := kept.opens (.inl rfl) dated "" []
      obtain ⟨feature', opened, cases, untitled⟩ :=
        opened.begins dated .nil (Nat.le_refl _) card
      rw [collect_single kept.1]
      exact ⟨before, feature', first, total, _, opened, cases, untitled⟩
    · obtain ⟨before, feature, first, total, since, opened, cases, untitled⟩ := kept
      obtain ⟨spans, each, fits⟩ := cases.spans
      obtain ⟨feature', opened, cases, same⟩ := opened.begins dated each fits card
      exact ⟨before, feature', first, total, since, opened, cases, same.trans untitled⟩
  | closing testing closing args =>
    rcases testing with rfl | rfl
    · obtain ⟨before, feature, first, total, since, opened, cases⟩ := kept
      obtain ⟨feature', opened, cases, -⟩ := opened.closes cases dated closing args
      exact ⟨before, feature', first, total, since, opened, cases⟩
    · obtain ⟨before, feature, first, total, since, opened, cases, untitled⟩ := kept
      obtain ⟨feature', opened, cases, same⟩ := opened.closes cases dated closing args
      exact ⟨before, feature', first, total, since, opened, cases, same.trans untitled⟩
  | after within value =>
    rcases within with rfl | rfl
    · obtain ⟨before, feature, first, total, since, opened, none⟩ := kept
      have each : Spans feature.scenarios [] := none ▸ .nil
      exact opened.ends dated each opened.order.2 value
    · obtain ⟨before, feature, first, total, since, opened, cases⟩ := kept
      obtain ⟨spans, each, fits⟩ := cases.spans
      exact opened.ends dated each fits value

theorem Follows.kept {period : Period} {time : Nat} (follows : Follows period time results) :
    results.Kept time period := by
  induction follows with
  | initial time => exact ⟨rfl, .inl ⟨rfl, rfl, rfl⟩⟩
  | later before passes ih => exact ih.later passes
  | hears before dated hears ih => exact ih.hears dated hears

/-- What has been collected nests, wherever no suite is being run: each feature is as long as its
scenarios together unless it is untitled and has not ended, and the whole is as long as the features
together. What is not known yet is taken to be the present. -/
theorem Follows.nest {period : Period} {time : Nat} (follows : Follows period time results)
    (free : period = .between ∨ period = .alone) {now : Moment} (dated : now.Dated)
    (passes : time ≤ now.microseconds) : ∃ whole spans,
      Lasts (results.startTime.getD now.text) (some (results.endTime.getD now.text)) whole ∧
      List.Forall₂ FeatureResult.Nests results.features spans ∧ spans.sum ≤ whole := by
  have tallied {first total : Nat}
      (tallied : results.Tallied results.features first total time) : ∃ whole spans,
        Lasts (results.startTime.getD now.text) (some (results.endTime.getD now.text)) whole ∧
        List.Forall₂ FeatureResult.Nests results.features spans ∧ spans.sum ≤ whole := by
    obtain ⟨text, start, begun⟩ := tallied.start
    obtain ⟨spans, nest, rfl⟩ := tallied.nest
    have fits := tallied.fits
    rcases tallied.finish with ⟨text', last, finish, ended, within, past⟩ | ⟨finish, none⟩
    · refine ⟨last - first, spans, ?_, nest, by omega⟩
      rw [start, finish]
      exact .ended begun (by rwa [Option.getD_some, Nat.add_sub_cancel' (by omega)])
    · refine ⟨now.microseconds - first, spans, ?_, nest, by omega⟩
      rw [start, finish]
      refine .ended begun ?_
      rw [Option.getD_none, Nat.add_sub_cancel' (by omega)]
      exact dated.stamped
  have kept := follows.kept
  rcases free with rfl | rfl
  · obtain ⟨-, ⟨empty, start, finish⟩ | ⟨first, total, known⟩⟩ := kept
    · refine ⟨0, [], ?_, empty ▸ .nil, Nat.le_refl _⟩
      rw [start, finish]
      exact .ended dated.stamped dated.stamped
    · exact tallied known
  · obtain ⟨before, feature, first, total, since, opened, cases, untitled⟩ := kept
    exact tallied (opened.left cases untitled)

end Results

end FeatureRunner
