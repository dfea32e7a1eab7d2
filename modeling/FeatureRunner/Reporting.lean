import FeatureRunner.Report
import FeatureRunner.Suite
import FeatureRunner.World

/-!
Collecting results in a world: the collector subscribes to the events that results are made from.
-/

namespace FeatureRunner

/-- The events that the collector subscribes to, in order. -/
def collectedEvents : List (String × CollectorEvent) :=
  [(suiteBefore, .suiteBefore), (suiteAfter, .suiteAfter), (testStarted, .testStarted),
   (testPassed, .testPassed), (testFailed, .testFailed), (testSkipped, .testSkipped),
   (testFinished, .testFinished)]

namespace World

/-- Subscribes the collector. -/
def attach (world : World) : World :=
  { world with dispatcher := collectedEvents.foldl (fun dispatcher entry =>
      dispatcher.on entry.1 (.collector entry.2)) world.dispatcher }

/-- Takes back one subscription of the collector. -/
def detach (world : World) : World :=
  { world with dispatcher := collectedEvents.foldl (fun dispatcher entry =>
      dispatcher.off entry.1 (.collector entry.2)) world.dispatcher }

/-- The results at present, as a value. -/
def collected (world : World) : Value :=
  world.results.value world.now

end World

end FeatureRunner
