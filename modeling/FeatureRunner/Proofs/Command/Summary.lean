import FeatureRunner.Proofs.Command.Files
import FeatureRunner.Proofs.Dispatcher.Edits

/-!
The summary that a command prints. The counts come from the results that the collector has made of
events, and the lines on the tests from what the runs have answered; both tell how the tests ended.
-/

namespace FeatureRunner
open FeatureRunner.World

/-! ## Attaching the collector -/

theorem filter_eq_find? {α : Type} {entries : List (String × α)}
    (distinct : (entries.map Prod.fst).Nodup) (name : String) :
    (entries.filter (·.1 == name)).map (·.2) = ((entries.find? (·.1 == name)).map (·.2)).toList := by
  induction entries with
  | nil => rfl
  | cons entry rest ih =>
    rw [List.map_cons, List.nodup_cons] at distinct
    by_cases mine : entry.1 = name
    · have none : rest.filter (·.1 == name) = [] := by
        refine List.filter_eq_nil_iff.2 fun other member same => distinct.1 ?_
        exact List.mem_map.2 ⟨other, member, (by simpa using same : other.1 = name).trans mine.symm⟩
      simp [mine, none]
    · simp [mine, ih distinct.2]

/-- Who was not subscribed is after the collector is attached. -/
theorem watched_attach {world : World}
    (alone : ∀ event, (world.dispatcher.listeners event).filterMap Listener.collector? = []) :
    world.attach.Watched := by
  intro event
  have enlisted := handlers_enlist collectedEvents world.dispatcher event
  rw [handlers, handlers, alone, List.nil_append] at enlisted
  exact enlisted.trans (filter_eq_find? (by decide) event)

namespace Command
open Work

/-! ## Lines on tests -/

/-- How many lines begin with a mark. -/
def marked (mark : String) (lines : List String) : Nat :=
  lines.countP fun line => mark.toList.isPrefixOf line.toList

def checkMark : String := "  ✓ "
def crossMark : String := "  ✗ "
def pendingMark : String := "  - "

/-- The lines on tests that have been run. -/
def testLines (tests : List (Test × Option Fault)) : List String :=
  tests.flatMap fun (test, ending) => outcomeLines test ending

/-- One line on a test has a mark, which tells how the test ended. -/
theorem marked_outcomeLines (test : Test) (ending : Option Fault) :
    marked checkMark (outcomeLines test ending) = (if test.status ending = .passed then 1 else 0) ∧
    marked crossMark (outcomeLines test ending) = (if test.status ending = .failed then 1 else 0) ∧
    marked pendingMark (outcomeLines test ending) =
      if test.status ending = .skipped then 1 else 0 := by
  unfold outcomeLines Test.status
  cases test.pending with
  | true => simp [marked, checkMark, crossMark, pendingMark]
  | false => cases ending <;> simp [marked, checkMark, crossMark, pendingMark]

theorem marked_append (mark : String) (first rest : List String) :
    marked mark (first ++ rest) = marked mark first + marked mark rest :=
  List.countP_append

/-- As many lines have a mark as tests have ended as it tells. -/
theorem marked_testLines (tests : List (Test × Option Fault)) :
    marked checkMark (testLines tests) = tests.countP (fun (test, ending) =>
      test.status ending = .passed) ∧
    marked crossMark (testLines tests) = tests.countP (fun (test, ending) =>
      test.status ending = .failed) ∧
    marked pendingMark (testLines tests) = tests.countP (fun (test, ending) =>
      test.status ending = .skipped) := by
  induction tests with
  | nil => exact ⟨rfl, rfl, rfl⟩
  | cons first rest ih =>
    obtain ⟨passed, failed, skipped⟩ := marked_outcomeLines first.1 first.2
    obtain ⟨passed', failed', skipped'⟩ := ih
    have split : testLines (first :: rest) = outcomeLines first.1 first.2 ++ testLines rest := rfl
    simp only [split, marked_append, List.countP_cons, passed, failed, skipped, passed', failed',
      skipped', decide_eq_true_eq, Nat.add_comm]
    trivial

/-! ## The summary -/

/-- The summary of a number of tests with some lines on them. -/
def summaryLines (total : Nat) (lines : List String) : List String :=
  ["\nTest Execution Summary:", "  Total: " ++ toString total,
    "  Passed: " ++ toString (marked checkMark lines),
    "  Failed: " ++ toString (marked crossMark lines),
    "  Skipped: " ++ toString (marked pendingMark lines)]

/-- The collector is attached for new results. -/
def Workspace.watching (workspace : Workspace) : Workspace :=
  { workspace with world := { workspace.world with results := .initial }.attach }

/-- A workspace with more lines printed. -/
def Workspace.telling (workspace : Workspace) (lines : List String) : Workspace :=
  { workspace with output := workspace.output ++ printed lines }

/-- A `run` command gets as far as its summary: what it is given can be read, it is prepared, with
the collector attached, and then its files are run. -/
structure Reaches (config : Config) (given : List String) (workspace : Workspace)
    (arguments : Arguments) (prepared after : Workspace) : Prop where
  begins : ∃ formats directory ready, readRun config given workspace =
      (.ok (arguments, formats, directory), ready) ∧
    prepare config arguments ready.watching = (.ok (), prepared)
  runs : ∃ failed, runFiles (arguments.has "--trace") arguments.positional prepared =
    (.ok failed, after)

/-- What the collector has counted is what the lines on the tests tell. -/
theorem echoSummary_eq {results : Results} {told : SuitesRan} {workspace : Workspace}
    (reports : Results.Report results.features told) : echoSummary results workspace =
      (.ok (), workspace.telling (summaryLines told.tests.length (testLines told.tests))) := by
  obtain ⟨passed, failed, skipped⟩ := marked_testLines told.tests
  simp only [echoSummary, Bind.bind, echo_eq, Workspace.telling, summaryLines, (total_eq reports).1,
    count_eq reports, passed, failed, skipped]
  simp [String.append_assoc]

section Output

variable {config : Config} {given : List String} {workspace prepared after : Workspace}
  {arguments : Arguments}

theorem bind_of_ok {α β : Type} {work : Work α} {further : α → Work β} {value : α}
    (answers : work workspace = (.ok value, after)) :
    (work >>= further) workspace = further value after := by
  rw [bind_eq, answers]

theorem output_of_bind {α β : Type} {work : Work α} {further : α → Work β}
    (keeps : ∀ value, Keeps (further value)) :
    ((work >>= further) workspace).2.output = (work workspace).2.output := by
  rw [bind_eq]
  split
  · rename_i value mid found
    rw [(keeps value mid).2, found]
  · rename_i found
    rw [found]

theorem output_of_rescue {α : Type} {work : Work α} {handler : Fault → Work α}
    (keeps : ∀ fault, Keeps (handler fault)) :
    (work.rescue handler workspace).2.output = (work workspace).2.output := by
  unfold rescue
  split
  · rename_i fault mid failed
    rw [(keeps fault mid).2, failed]
  · rfl

theorem output_of_finishing {α : Type} {work : Work α} (change : Workspace → Workspace)
    (same : ∀ workspace, (change workspace).output = workspace.output) :
    (finishing work change workspace).2.output = (work workspace).2.output :=
  same _

/-- What comes before the files changes the helpers in the world and nothing else. -/
theorem prepare_ok (answers : prepare config arguments workspace = (.ok (), prepared)) :
    ∃ container, prepared.world = { workspace.world with container := container } := by
  obtain ⟨paths, first, named, answers⟩ := bind_ok answers
  obtain ⟨count, second, loaded, answers⟩ := bind_ok answers
  obtain ⟨_, third, told, answers⟩ := bind_ok answers
  obtain ⟨-, rfl⟩ := onWorld_ok answers
  have kept := stepPaths_keeps config arguments workspace
  have kept' := loadSteps_keeps paths first
  rw [named] at kept
  rw [loaded] at kept'
  rw [echo_eq] at told
  cases told
  exact ⟨_, by rw [← kept.1, ← kept'.1]⟩

/-- What a command that gets as far as its summary has printed at its end. -/
theorem Reaches.output {told : SuitesRan}
    (reaches : Reaches config given workspace arguments prepared after)
    (reports : Results.Report after.world.results.features told) : ∃ more,
    (run config given workspace).2.output =
      (after.telling (summaryLines told.tests.length (testLines told.tests))).output ++ more := by
  obtain ⟨⟨formats, directory, ready, reads, prepares⟩, failed, runs⟩ := reaches
  generalize summary : after.telling (summaryLines told.tests.length (testLines told.tests)) = summed
  have attaches : onWorld (fun world => (.ok (), { world with results := .initial }.attach)) ready =
      (.ok (), ready.watching) := rfl
  have counted : Work.get after = (.ok after, after) := rfl
  have summed' : echoSummary after.world.results after = (.ok (), summed) :=
    summary ▸ echoSummary_eq reports
  have body : (runBody config arguments formats directory ready.watching).2.output =
      (writeReports directory after.world.collected formats summed).2.output := by
    rw [runBody, bind_of_ok prepares, bind_of_ok runs, bind_of_ok counted, bind_of_ok summed']
    exact output_of_bind fun _ => .pure failed
  obtain ⟨more, adds⟩ := writeReports_adds directory after.world.collected formats summed
  refine ⟨more, ?_⟩
  rw [run, bind_of_ok reads]
  dsimp only
  rw [bind_of_ok attaches, output_of_bind fun _ => .stop _, output_of_finishing cleanUp fun _ => rfl,
    output_of_rescue, body, adds]
  intro fault
  split
  · exact .bind (.echoError _) fun _ => .stop _
  · exact .stop _

/-- Where the files of a command begin in a new world, nothing has been run and the collector is
attached. -/
theorem Reaches.parked (reaches : Reaches config given workspace arguments prepared after)
    (fresh : workspace.world.Fresh)
    (alone : ∀ event, (workspace.world.dispatcher.listeners event).filterMap Listener.collector? = []) :
    prepared.world.Parked [] ∧ prepared.world.results.features = [] := by
  obtain ⟨⟨formats, directory, ready, reads, prepares⟩, _⟩ := reaches
  have kept := readRun_keeps config given workspace
  rw [reads] at kept
  obtain ⟨container, same⟩ := prepare_ok prepares
  have watched : ready.watching.world.Watched := watched_attach (kept.1 ▸ alone)
  have fresh : prepared.world.Fresh := by
    rw [same, Workspace.watching, kept.1]
    exact ⟨fresh.recorder, fresh.tasks, fresh.current, fresh.ready, fresh.soon⟩
  refine ⟨fresh.parked ?_, by rw [same]; rfl⟩
  rw [same]
  exact watched

/-- What a command prints that gets as far as its summary: blocks of lines on its files, and at the
end as many tests as have a line of each kind. -/
theorem summary_told (reaches : Reaches config given workspace arguments prepared after)
    (fresh : workspace.world.Fresh)
    (alone : ∀ event, (workspace.world.dispatcher.listeners event).filterMap Listener.collector? = [])
    (orderly : ∀ past ∈ filesPast (arguments.has "--trace") arguments.positional prepared,
      past.Orderly True)
    (genuine : ∀ past ∈ filesPast (arguments.has "--trace") arguments.positional prepared,
      past.Genuine) : ∃ (told : SuitesRan) (blocks : _) (front more : String),
    Results.Report after.world.results.features told ∧
    Blocks (arguments.has "--trace") blocks told ∧
    (run config given workspace).2.output = front ++ printed blocks.flatten ++
      printed (summaryLines told.tests.length (testLines told.tests)) ++ more := by
  obtain ⟨parked, empty⟩ := reaches.parked fresh alone
  obtain ⟨failed, runs⟩ := reaches.runs
  obtain ⟨told, features, blocks, reports, block, same, output⟩ :=
    files_reported parked runs orderly genuine
  rw [empty, List.nil_append] at same
  obtain ⟨more, printed⟩ := reaches.output (same ▸ reports)
  refine ⟨told, blocks, prepared.output, more, same ▸ reports, block, ?_⟩
  rw [printed, Workspace.telling, output]

end Output

end Command

end FeatureRunner
