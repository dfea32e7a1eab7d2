import FeatureRunner.Command
import FeatureRunner.Description
import FeatureRunner.Main
import FeatureRunner.Proofs.Actor.Line
import FeatureRunner.Proofs.Actor.Resolution
import FeatureRunner.Proofs.Actor.Wording
import FeatureRunner.Proofs.Command.Agreement
import FeatureRunner.Proofs.Command.CleanUp
import FeatureRunner.Proofs.Command.Faults
import FeatureRunner.Proofs.Command.Preview
import FeatureRunner.Proofs.Command.Settings
import FeatureRunner.Proofs.Command.Uncompiled
import FeatureRunner.Proofs.Config.Assignment
import FeatureRunner.Proofs.Config.Layers
import FeatureRunner.Proofs.Container.ClassPath
import FeatureRunner.Proofs.Container.Update
import FeatureRunner.Proofs.Dispatcher.Snapshot
import FeatureRunner.Proofs.Pattern.Acceptance
import FeatureRunner.Proofs.Pattern.Grammar
import FeatureRunner.Proofs.Pattern.Lengths
import FeatureRunner.Proofs.Pattern.Match
import FeatureRunner.Proofs.Pattern.Policies
import FeatureRunner.Proofs.Pattern.Substitution
import FeatureRunner.Proofs.Recorder.Deadlock
import FeatureRunner.Proofs.Recorder.Promise
import FeatureRunner.Proofs.Recorder.Segment
import FeatureRunner.Proofs.Recorder.Session
import FeatureRunner.Proofs.Registry.Arguments
import FeatureRunner.Proofs.Registry.History
import FeatureRunner.Proofs.Registry.Precedence
import FeatureRunner.Proofs.Registry.SourceOrder
import FeatureRunner.Proofs.Registry.Unpacking
import FeatureRunner.Proofs.Report.Nesting
import FeatureRunner.Proofs.Report.Page
import FeatureRunner.Proofs.Report.ReadBack
import FeatureRunner.Proofs.Report.Totals
import FeatureRunner.Proofs.Report.Xml
import FeatureRunner.Proofs.Results.Accounting
import FeatureRunner.Proofs.Results.Attendance
import FeatureRunner.Proofs.Results.Books
import FeatureRunner.Proofs.Results.Conduct
import FeatureRunner.Proofs.Results.Nesting
import FeatureRunner.Proofs.Results.Succession
import FeatureRunner.Proofs.Sequential.Bodies
import FeatureRunner.Proofs.Sequential.Drain
import FeatureRunner.Proofs.Sequential.Mirror
import FeatureRunner.Proofs.Sequential.Refinement
import FeatureRunner.Proofs.Suite.Aftermath
import FeatureRunner.Proofs.Suite.Closing
import FeatureRunner.Proofs.Suite.Entry
import FeatureRunner.Proofs.Suite.Layout
import FeatureRunner.Proofs.Suite.Lifecycle
import FeatureRunner.Proofs.Suite.Spacing
import FeatureRunner.Proofs.Suite.Unresolved
import FeatureRunner.Proofs.Table
import FeatureRunner.Proofs.World.Loop
import FeatureRunner.Session
