import FeatureRunner.Proofs.Command.Faults
import FeatureRunner.Proofs.Container.Misfit

/-!
What the commands read from a configuration that was accepted. Only its white space policy has been looked
at by then; the paths of step files, the part on reports and the helpers may be anything. A value of the wrong
type stops a command by a fault that no handler takes, and any other fault of reading them is reported.

Main statement: `settings_read`.
-/

namespace FeatureRunner.Command
open Work

/-- What commands read from the configuration. Options are given besides it, or in place of it. -/
inductive Setting
  | paths (arguments : Arguments)
  | report (arguments : Arguments)
  | helpers

namespace Setting

def read (config : Config) : Setting → Work Unit
  | .paths arguments => do
    let _ ← findAll (← stepPaths config arguments)
  | .report arguments => do
    let _ ← reportFormats (config.part "report") arguments
    let _ ← reportDirectory (config.part "report") arguments
  | .helpers => onWorld fun world =>
    let (result, container) := world.container.create world.modules
      (.record [("helpers", config.getD "helpers" (.dict []))])
    (result.mapError .fault, { world with container := container })

end Setting

/-! ## Values of the wrong type -/

def pathsOf (config : Config) : Value :=
  config.getD "steps.paths" (.list [])

def helpersOf (config : Config) : Value :=
  config.getD "helpers" (.dict [])

/-- There is something at a path. -/
def Leads (tree : FileTree) (path : Path) : Prop :=
  tree.isDirectory path = true ∨ tree.has path = true

/-- Some paths among which there is one that is no text, behind paths that lead somewhere. -/
inductive Misplaced (tree : FileTree) : List Value → Fault → Prop
  | here {value : Value} {rest : List Value} (wrong : ∀ name, value ≠ .text name) :
      Misplaced tree (value :: rest)
        (.misuse ("expected str, bytes or os.PathLike object, not " ++ value.typeName))
  | later {name : String} {rest : List Value} {fault : Fault} (leads : Leads tree (.ofText name))
      (misplaced : Misplaced tree rest fault) : Misplaced tree (.text name :: rest) fault

/-- A value that cannot be used as the paths of step files. -/
inductive PathsMisfit (tree : FileTree) (value : Value) : Fault → Prop
  | unlisted (wrong : ∀ items, value.items? ≠ .ok items) :
      PathsMisfit tree value (.misuse ("Value after * must be an iterable, not " ++ value.typeName))
  | misplaced {items : List Value} {fault : Fault} (lists : value.items? = .ok items)
      (misplaced : Misplaced tree items fault) : PathsMisfit tree value fault

/-- No formats of reports are given as options, so that the configuration says them. -/
def formatsUnset (arguments : Arguments) : Bool :=
  (arguments.values "--report").isEmpty

def directoryUnset (arguments : Arguments) : Bool :=
  ((arguments.value? "--output-dir").getD "").isEmpty

def formatsOf (report : List (Value × Value)) : Value :=
  (Value.field? report "formats").getD (.list [])

def directoryOf (report : List (Value × Value)) : Value :=
  (Value.field? report "output_dir").getD (.text "test-results")

/-- A value that cannot be used as the part on reports, where options do not say what is asked of it. -/
inductive ReportMisfit (arguments : Arguments) : Value → Fault → Prop
  | unlisted {value : Value} (unset : formatsUnset arguments = true ∨ directoryUnset arguments = true)
      (wrong : ∀ entries, value ≠ .dict entries) :
      ReportMisfit arguments value (.missingMember value.typeName "get")
  | formats {report : List (Value × Value)} {fault : Fault} (unset : formatsUnset arguments = true)
      (fails : (formatsOf report).items? = .error fault) : ReportMisfit arguments (.dict report) fault
  | directory {report : List (Value × Value)}
      (listed : formatsUnset arguments = true → ∃ formats, (formatsOf report).items? = .ok formats)
      (unset : directoryUnset arguments = true) (wrong : ∀ path, directoryOf report ≠ .text path) :
      ReportMisfit arguments (.dict report)
        (.misuse ("expected str, bytes or os.PathLike object, not " ++ (directoryOf report).typeName))

/-- What is read from the configuration is a value that cannot be used. -/
inductive Setting.Misfit (config : Config) (workspace : Workspace) (fault : Fault) : Setting → Prop
  | paths {arguments : Arguments}
      (misfit : PathsMisfit workspace.tree (pathsOf config) fault) :
      Misfit config workspace fault (.paths arguments)
  | report {arguments : Arguments} (misfit : ReportMisfit arguments (config.part "report") fault) :
      Misfit config workspace fault (.report arguments)
  | helpers (misfit : Container.Misfit workspace.world.modules (helpersOf config) fault) :
      Misfit config workspace fault .helpers

/-- A fault escapes from some work. -/
def Raises {α : Type} (work : Work α) (workspace : Workspace) (fault : Fault) : Prop :=
  ∃ after, Escapes work workspace fault after

section Reading

variable {α β : Type} {work : Work α} {further : α → Work β} {workspace start : Workspace}
  {fault : Fault} {config : Config} {arguments : Arguments} {value : Value} {values : List Value}

theorem raises_bind : Raises (work >>= further) workspace fault ↔ Raises work workspace fault ∨
    ∃ value mid, work workspace = (.ok value, mid) ∧ Raises (further value) mid fault := by
  simp only [Raises, escapes_bind]
  constructor
  · rintro ⟨after, here | ⟨value, mid, known, there⟩⟩
    · exact .inl ⟨after, here⟩
    · exact .inr ⟨value, mid, known, after, there⟩
  · rintro (⟨after, here⟩ | ⟨value, mid, known, after, there⟩)
    · exact ⟨after, .inl here⟩
    · exact ⟨after, .inr ⟨value, mid, known, there⟩⟩

theorem not_raises_pure {value : α} : ¬ Raises (pure value : Work α) workspace fault := by
  rintro ⟨_, ⟨⟩⟩

theorem ofExcept_bind (answer : Except Fault α) (next : α → Except Fault β) :
    (ofExcept answer >>= fun value => ofExcept (next value)) = ofExcept (answer >>= next) := by
  cases answer <;> rfl

/-! ### Paths -/

theorem Misplaced.mistyped {tree : FileTree} (misplaced : Misplaced tree values fault) :
    fault.isMistyped = true := by
  induction misplaced with
  | here wrong => rfl
  | later leads misplaced ih => exact ih

/-- Paths that are given as options are texts. -/
theorem misplaced_append {tree : FileTree} (names : List String) :
    Misplaced tree (values ++ names.map .text) fault ↔ Misplaced tree values fault := by
  have texts : ¬ Misplaced tree (names.map .text) fault := by
    induction names with
    | nil => nofun
    | cons name names ih =>
      rintro (⟨wrong⟩ | ⟨leads, misplaced⟩)
      · exact wrong name rfl
      · exact ih misplaced
  induction values with
  | nil => exact iff_of_false texts nofun
  | cons value values ih =>
    constructor
    · rintro (⟨wrong⟩ | ⟨leads, misplaced⟩)
      · exact .here wrong
      · exact .later leads (ih.1 misplaced)
    · rintro (⟨wrong⟩ | ⟨leads, misplaced⟩)
      · exact .here wrong
      · exact .later leads (ih.2 misplaced)

theorem filesAt_eq (path : Path) (start : Workspace) : filesAt path start =
    (if start.tree.isDirectory path then pure (start.tree.filesBelow path stepFileEnding)
      else if start.tree.has path then pure [path] else fail (.stepsNotFound path.text)) start := rfl

theorem filesAt_of_leads {path : Path} (leads : Leads start.tree path) :
    ∃ found, filesAt path start = (.ok found, start) := by
  rw [filesAt_eq]
  split
  · exact ⟨_, rfl⟩
  · next other =>
    rw [if_pos (leads.resolve_left other)]
    exact ⟨_, rfl⟩

theorem filesAt_of_not_leads {path : Path} (nowhere : ¬ Leads start.tree path) :
    Escapes (filesAt path) start (.stepsNotFound path.text) start := by
  obtain ⟨directory, file⟩ := not_or.1 nowhere
  rw [Escapes, filesAt_eq, if_neg directory, if_neg file]
  rfl

theorem findAll_raises (raises : Raises (findAll values) start fault) :
    Misplaced start.tree values fault ∨ ∃ path, fault = .stepsNotFound path := by
  induction values with
  | nil => exact absurd raises not_raises_pure
  | cons value values ih =>
    cases value with
    | text name =>
      by_cases leads : Leads start.tree (.ofText name)
      · obtain ⟨found, known⟩ := filesAt_of_leads leads
        rcases raises_bind.1 raises with ⟨after, here⟩ | ⟨_, mid, known', later⟩
        · cases known.symm.trans here
        · cases known.symm.trans known'
          rcases raises_bind.1 later with later | ⟨_, _, _, last⟩
          · exact (ih later).imp_left (.later leads)
          · exact absurd last not_raises_pure
      · have missing := filesAt_of_not_leads leads
        rcases raises_bind.1 raises with ⟨after, here⟩ | ⟨_, mid, known, _⟩
        · cases here.symm.trans missing
          exact .inr ⟨_, rfl⟩
        · cases known.symm.trans missing
    | _ =>
      obtain ⟨after, ⟨⟩⟩ := raises
      exact .inl (.here nofun)

theorem Misplaced.findAll (misplaced : Misplaced start.tree values fault) :
    Raises (Work.findAll values) start fault := by
  induction values with
  | nil => cases misplaced
  | cons value values ih =>
    cases misplaced with
    | here wrong =>
      cases value with
      | text name => exact absurd rfl (wrong name)
      | _ => exact ⟨start, rfl⟩
    | later leads misplaced =>
      obtain ⟨found, known⟩ := filesAt_of_leads leads
      exact raises_bind.2 (.inr ⟨found, start, known, raises_bind.2 (.inl (ih misplaced))⟩)

theorem stepPaths_of_ok {items : List Value} (lists : (pathsOf config).items? = .ok items)
    (arguments : Arguments) (start : Workspace) : stepPaths config arguments start =
      (.ok (items ++ (arguments.values "--steps").map .text), start) := by
  rw [stepPaths, ← pathsOf, spread?_eq_ok.2 lists]
  rfl

theorem spread?_eq_error : spread? value = .error fault ↔ (∀ items, value.items? ≠ .ok items) ∧
    fault = .misuse ("Value after * must be an iterable, not " ++ value.typeName) := by
  unfold spread?
  cases value.items? <;> simp [Except.mapError, eq_comm]

theorem stepPaths_of_error (fails : spread? (pathsOf config) = .error fault) (arguments : Arguments)
    (start : Workspace) : Escapes (stepPaths config arguments) start fault start := by
  rw [Escapes, stepPaths, ← pathsOf, fails]
  rfl

theorem items?_mistyped (fails : value.items? = .error fault) : fault.isMistyped = true := by
  cases value <;> cases fails <;> rfl

theorem PathsMisfit.mistyped {tree : FileTree} (misfit : PathsMisfit tree value fault) :
    fault.isMistyped = true := by
  cases misfit with
  | unlisted wrong => rfl
  | misplaced lists misplaced => exact misplaced.mistyped

theorem paths_raises (raises : Raises ((Setting.paths arguments).read config) start fault) :
    PathsMisfit start.tree (pathsOf config) fault ∨ ∃ path, fault = .stepsNotFound path := by
  cases lists : spread? (pathsOf config) with
  | error raised =>
    have fails := stepPaths_of_error lists arguments start
    rcases raises_bind.1 raises with ⟨after, here⟩ | ⟨_, _, known, _⟩
    · cases here.symm.trans fails
      obtain ⟨wrong, rfl⟩ := spread?_eq_error.1 lists
      exact .inl (.unlisted wrong)
    · cases known.symm.trans fails
  | ok items =>
    have lists := spread?_eq_ok.1 lists
    have found := stepPaths_of_ok lists arguments start
    rcases raises_bind.1 raises with ⟨after, here⟩ | ⟨_, _, known, later⟩
    · cases found.symm.trans here
    · cases found.symm.trans known
      rcases raises_bind.1 later with later | ⟨_, _, _, last⟩
      · exact (findAll_raises later).imp_left fun misplaced =>
          .misplaced lists ((misplaced_append _).1 misplaced)
      · exact absurd last not_raises_pure

theorem PathsMisfit.read (misfit : PathsMisfit start.tree (pathsOf config) fault) :
    Raises ((Setting.paths arguments).read config) start fault := by
  cases misfit with
  | unlisted wrong =>
    have fails := spread?_eq_error.2 ⟨wrong, rfl⟩
    exact raises_bind.2 (.inl ⟨start, stepPaths_of_error fails arguments start⟩)
  | misplaced lists misplaced =>
    have raises := ((misplaced_append (arguments.values "--steps")).2 misplaced).findAll
    have named := stepPaths_of_ok lists arguments start
    exact raises_bind.2 (.inr ⟨_, start, named, raises_bind.2 (.inl raises)⟩)

/-! ### Reports -/

def formatsRead (value : Value) (arguments : Arguments) : Except Fault (List Value) :=
  if formatsUnset arguments then value.getOr "formats" (.list []) >>= Value.items?
  else .ok ((arguments.values "--report").map .text)

def asPath : Value → Except Fault Path
  | .text path => .ok (.ofText path)
  | value => .error (.misuse ("expected str, bytes or os.PathLike object, not " ++ value.typeName))

def directoryRead (value : Value) (arguments : Arguments) : Except Fault Path :=
  if directoryUnset arguments then value.getOr "output_dir" (.text "test-results") >>= asPath
  else .ok (.ofText ((arguments.value? "--output-dir").getD ""))

theorem reportFormats_eq (value : Value) (arguments : Arguments) :
    reportFormats value arguments = ofExcept (formatsRead value arguments) := by
  unfold reportFormats formatsRead formatsUnset
  dsimp only
  cases (arguments.values "--report").isEmpty with
  | false => rfl
  | true => exact ofExcept_bind _ _

theorem reportDirectory_eq (value : Value) (arguments : Arguments) :
    reportDirectory value arguments = ofExcept (directoryRead value arguments) := by
  unfold reportDirectory directoryRead directoryUnset
  dsimp only
  cases unset : ((arguments.value? "--output-dir").getD "").isEmpty with
  | false => rfl
  | true =>
    rw [if_neg (by simp), if_pos rfl, ← ofExcept_bind]
    refine bind_congr fun found => ?_
    cases found <;> rfl

theorem getOr_wrong (wrong : ∀ entries, value ≠ .dict entries) (key : String) (default : Value) :
    value.getOr key default = .error (.missingMember value.typeName "get") := by
  cases value with
  | dict entries => exact absurd rfl (wrong entries)
  | _ => rfl

theorem asPath_error : asPath value = .error fault ↔ (∀ path, value ≠ .text path) ∧
    fault = .misuse ("expected str, bytes or os.PathLike object, not " ++ value.typeName) := by
  cases value with
  | text path => simp [asPath]
  | _ => simp [asPath, eq_comm]

/-- The part on reports is read for the formats and then for the directory. -/
theorem raises_of_report {γ : Type} {last : List Value → Path → Work γ}
    (quiet : ∀ formats directory, ¬ Raises (last formats directory) start fault) :
    Raises (reportFormats value arguments >>= fun formats =>
        reportDirectory value arguments >>= last formats) start fault ↔
      formatsRead value arguments = .error fault ∨
        (∃ formats, formatsRead value arguments = .ok formats) ∧
          directoryRead value arguments = .error fault := by
  rw [reportFormats_eq, reportDirectory_eq]
  cases formatsRead value arguments with
  | error raised =>
    constructor
    · rintro ⟨_, ⟨⟩⟩
      exact .inl rfl
    · rintro (⟨⟨⟩⟩ | ⟨⟨_, ⟨⟩⟩, _⟩)
      exact ⟨start, rfl⟩
  | ok formats =>
    cases directoryRead value arguments with
    | error raised =>
      constructor
      · rintro ⟨_, ⟨⟩⟩
        exact .inr ⟨⟨formats, rfl⟩, rfl⟩
      · rintro (⟨⟨⟩⟩ | ⟨-, ⟨⟩⟩)
        exact ⟨start, rfl⟩
    | ok directory =>
      refine iff_of_false (quiet formats directory) ?_
      rintro (⟨⟨⟩⟩ | ⟨-, ⟨⟩⟩)

theorem ReportMisfit.mistyped (misfit : ReportMisfit arguments value fault) : fault.isMistyped = true := by
  cases misfit with
  | unlisted unset wrong => rfl
  | formats unset fails => exact items?_mistyped fails
  | directory listed unset wrong => rfl

theorem misfit_of_formats (fails : formatsRead value arguments = .error fault) :
    ReportMisfit arguments value fault := by
  unfold formatsRead at fails
  split at fails
  · next unset =>
    by_cases mapping : ∃ report, value = .dict report
    · obtain ⟨report, rfl⟩ := mapping
      exact .formats unset fails
    · have wrong := not_exists.1 mapping
      rw [getOr_wrong wrong] at fails
      cases fails
      exact .unlisted (.inl unset) wrong
  · cases fails

theorem misfit_of_directory {formats : List Value} (lists : formatsRead value arguments = .ok formats)
    (fails : directoryRead value arguments = .error fault) : ReportMisfit arguments value fault := by
  unfold directoryRead at fails
  split at fails
  · next unset =>
    by_cases mapping : ∃ report, value = .dict report
    · obtain ⟨report, rfl⟩ := mapping
      obtain ⟨wrong, rfl⟩ := asPath_error.1 fails
      exact .directory (fun asked => ⟨formats, (if_pos asked).symm.trans lists⟩) unset wrong
    · have wrong := not_exists.1 mapping
      rw [getOr_wrong wrong] at fails
      cases fails
      exact .unlisted (.inr unset) wrong
  · cases fails

/-- The part on reports is a misfit exactly where reading it fails. -/
theorem reportMisfit_iff : ReportMisfit arguments value fault ↔
    formatsRead value arguments = .error fault ∨
      (∃ formats, formatsRead value arguments = .ok formats) ∧
        directoryRead value arguments = .error fault := by
  constructor
  · rintro (⟨unset, wrong⟩ | ⟨unset, fails⟩ | ⟨listed, unset, wrong⟩)
    -- The formats are read first, so the directory matters only if options say the formats.
    · cases formats : formatsUnset arguments with
      | true => exact .inl (by rw [formatsRead, if_pos formats, getOr_wrong wrong]; rfl)
      | false =>
        have asked : directoryUnset arguments = true := unset.resolve_left (by simp [formats])
        refine .inr ⟨⟨_, if_neg (by simp [formats])⟩, ?_⟩
        rw [directoryRead, if_pos asked, getOr_wrong wrong]
        rfl
    · exact .inl ((if_pos unset).trans fails)
    · refine .inr ⟨?_, (if_pos unset).trans (asPath_error.2 ⟨wrong, rfl⟩)⟩
      unfold formatsRead
      split
      · next asked => exact listed asked
      · exact ⟨_, rfl⟩
  · rintro (fails | ⟨⟨formats, lists⟩, fails⟩)
    · exact misfit_of_formats fails
    · exact misfit_of_directory lists fails

/-! ### Helpers -/

theorem helpers_raises : Raises (Setting.helpers.read config) start fault ↔
    ∃ next, start.world.container.create start.world.modules
      (.record [("helpers", helpersOf config)]) = (.error fault, next) := by
  unfold Raises Escapes Setting.read
  dsimp only [onWorld]
  rw [← helpersOf]
  cases start.world.container.create start.world.modules (.record [("helpers", helpersOf config)]) with
  | mk result next => cases result <;> simp [Except.mapError]

/-! ### All of them -/

variable {setting : Setting}

theorem Setting.Misfit.mistyped (misfit : Misfit config start fault setting) : fault.isMistyped = true := by
  cases misfit with
  | paths misfit => exact misfit.mistyped
  | report misfit => exact misfit.mistyped
  | helpers misfit => exact misfit.mistyped

theorem Setting.Misfit.raises (misfit : Misfit config start fault setting) :
    Raises (setting.read config) start fault := by
  cases misfit with
  | paths misfit => exact misfit.read
  | report misfit => exact (raises_of_report fun _ _ => not_raises_pure).2 (reportMisfit_iff.1 misfit)
  | helpers misfit => exact helpers_raises.2 (misfit.create _)

/-- What is raised by reading a setting is over a misfit, or it is of other kinds. -/
theorem read_cases (raises : Raises (setting.read config) start fault) :
    Setting.Misfit config start fault setting ∨ (∃ path, fault = .stepsNotFound path) ∨
      fault.kind = .configuration := by
  cases setting with
  | paths arguments =>
    rcases paths_raises raises with misfit | missing
    · exact .inl (.paths misfit)
    · exact .inr (.inl missing)
  | report arguments =>
    have fails := (raises_of_report fun _ _ => not_raises_pure).1 raises
    exact .inl (.report (reportMisfit_iff.2 fails))
  | helpers =>
    obtain ⟨next, fails⟩ := helpers_raises.1 raises
    rcases Container.create_error fails with misfit | kind
    · exact .inl (.helpers misfit)
    · exact .inr (.inr kind)

end Reading

/-! ## Commands -/

/-- A command comes to read a setting in a workspace: `list-steps` and `preview` read the paths of step files
once they have read their arguments; `run` then reads the part on reports, begins, reads the paths, loads the
step files, and reads the helpers. -/
inductive Comes (config : Config) (given : List String) (ready : Workspace) :
    String → Setting → Workspace → Prop
  | listing {arguments : Arguments} (reads : Arguments.read listForm.options true given = .ok arguments)
      (alone : arguments.positional = []) : Comes config given ready "list-steps" (.paths arguments) ready
  | previewing {arguments : Arguments} {path : String}
      (reads : Arguments.read previewForm.options true given = .ok arguments)
      (one : arguments.positional = [path])
      (found : requirePaths previewForm "FEATURE_FILE" [path] ready = (.ok (), ready)) :
      Comes config given ready "preview" (.paths arguments) ready
  | reporting {arguments : Arguments} (reads : Arguments.read runForm.options true given = .ok arguments)
      (known : ((arguments.values "--report").find? fun format => (ReportFormat.ofName? format).isNone) = none)
      (some : arguments.positional ≠ [])
      (found : requirePaths runForm "FEATURE_FILES..." arguments.positional ready = (.ok (), ready)) :
      Comes config given ready "run" (.report arguments) ready
  | loading {arguments : Arguments} {formats : List Value} {directory : Path} {begun : Workspace}
      (reads : readRun config given ready = (.ok (arguments, formats, directory), begun)) :
      Comes config given ready "run" (.paths arguments) begun.watching
  | building {arguments : Arguments} {formats paths : List Value} {directory : Path}
      {begun loaded : Workspace} {count : Nat}
      (reads : readRun config given ready = (.ok (arguments, formats, directory), begun))
      (named : stepPaths config arguments begun.watching = (.ok paths, begun.watching))
      (loads : loadSteps paths begun.watching = (.ok count, loaded)) :
      Comes config given ready "run" .helpers
        (loaded.telling ["Loaded " ++ toString count ++ " step definitions"])

/-- Some work ends with a message on a fault. -/
def Reports {α : Type} (work : Work α) (workspace : Workspace) (fault : Fault) : Prop :=
  ∃ code before after, work workspace = (.error (.leave code), after) ∧ code ≠ 0 ∧
    after.errors = before ++ fault.message ++ "\n"

/-- How some work ends by a fault, which is reported unless it is over a value of the wrong type. -/
structure Ends {α : Type} (work : Work α) (workspace : Workspace) (fault : Fault) : Prop where
  raises : fault.isMistyped = true → Raises work workspace fault
  reports : fault.isMistyped = false → Reports work workspace fault

section Commands

variable {α β : Type} {work : Work α} {further : α → Work β} {value : α} {config : Config}
  {given : List String} {ready start mid : Workspace} {fault : Fault} {arguments : Arguments}
  {form : CommandForm} {paths formats : List Value} {directory : Path}

theorem Ends.before (ends : Ends work start fault) (further : α → Work β) :
    Ends (work >>= further) start fault where
  raises mistyped := raises_bind.2 (.inl (ends.raises mistyped))
  reports other := by
    obtain ⟨code, before, after, known, bad, message⟩ := ends.reports other
    exact ⟨code, before, after, by rw [bind_eq, known], bad, message⟩

theorem Ends.of_eq {other : Work α} (ends : Ends work mid fault) (same : other start = work mid) :
    Ends other start fault := by
  refine ⟨fun mistyped => ?_, fun unmistyped => ?_⟩
  · obtain ⟨after, raises⟩ := ends.raises mistyped
    exact ⟨after, same.trans raises⟩
  · obtain ⟨code, before, after, known, rest⟩ := ends.reports unmistyped
    exact ⟨code, before, after, same.trans known, rest⟩

theorem Ends.behind (ends : Ends (further value) mid fault) (known : work start = (.ok value, mid)) :
    Ends (work >>= further) start fault :=
  ends.of_eq (bind_of_ok known)

theorem loadSteps_raises (raises : Raises (findAll paths) start fault) :
    Raises (loadSteps paths) start fault :=
  raises_bind.2 (.inr ⟨start.registry, start, rfl, raises_bind.2 (.inl raises)⟩)

theorem rescue_of_escapes {handler : Fault → Work α} (escapes : Escapes work start fault mid) :
    work.rescue handler start = handler fault mid := by
  unfold rescue
  rw [escapes]

theorem refuse_reports (form : CommandForm) (problem : String) (workspace : Workspace) :
    ∃ before after, (refuse form (.invalid problem) : Work α) workspace = (.error (.leave 2), after) ∧
      after.errors = before ++ problem ++ "\n" := by
  let usage := "Usage: " ++ form.call ++ " " ++ form.arguments ++ "\nTry '" ++ form.call ++
    " --help' for help.\n\nError: "
  have refused : (refuse form (.invalid problem) : Work α) workspace = (.error (.leave 2), { workspace with
      errors := workspace.errors ++ (usage ++ ("Invalid value: " ++ problem)) ++ "\n" }) := rfl
  refine ⟨workspace.errors ++ usage ++ "Invalid value: ", _, refused, ?_⟩
  simp only [String.append_assoc]

/-- Loading fails if its paths are not found; only a path that leads nowhere is reported. -/
theorem loadStepsFor_ends (raises : Raises (findAll paths) start fault)
    (kind : fault.isMistyped = true ∨ ∃ path, fault = .stepsNotFound path) (form : CommandForm) :
    Ends (loadStepsFor form paths) start fault := by
  obtain ⟨after, escapes⟩ := loadSteps_raises raises
  refine Ends.before ?_ _
  rcases kind with mistyped | ⟨path, rfl⟩
  · refine ⟨fun _ => ⟨after, ?_⟩, fun other => by rw [mistyped] at other; cases other⟩
    rw [Escapes, rescue_of_escapes escapes]
    split
    · cases mistyped
    · rfl
  · refine ⟨fun mistyped => (by cases mistyped), fun _ => ?_⟩
    obtain ⟨before, last, refused, message⟩ := refuse_reports form _ after
    exact ⟨2, before, last, (rescue_of_escapes escapes).trans refused, by decide, message⟩

theorem stepPaths_raises (raises : Raises (stepPaths config arguments) start fault) :
    fault.isMistyped = true := by
  obtain ⟨after, raises⟩ := raises
  cases lists : spread? (pathsOf config) with
  | ok items => cases raises.symm.trans (stepPaths_of_ok (spread?_eq_ok.1 lists) arguments start)
  | error raised =>
    cases raises.symm.trans (stepPaths_of_error lists arguments start)
    obtain ⟨-, rfl⟩ := spread?_eq_error.1 lists
    rfl

theorem Ends.of_mistyped (raises : Raises work start fault) (mistyped : fault.isMistyped = true) :
    Ends work start fault :=
  ⟨fun _ => raises, fun other => by rw [mistyped] at other; cases other⟩

/-- Work that begins by loading the step files at the paths of the configuration. -/
theorem paths_end {further : List Value → Work Unit} (form : CommandForm)
    (loading : ∀ paths, paths ≠ [] → ∃ rest : Unit → Work Unit,
      further paths = loadStepsFor form paths >>= rest)
    (raises : Raises ((Setting.paths arguments).read config) start fault) :
    Ends (stepPaths config arguments >>= further) start fault := by
  rcases raises_bind.1 raises with here | ⟨paths, mid, known, later⟩
  · exact .of_mistyped (raises_bind.2 (.inl here)) (stepPaths_raises here)
  rcases raises_bind.1 later with later | ⟨_, _, _, last⟩
  · have some : paths ≠ [] := by
      rintro rfl
      exact not_raises_pure later
    obtain ⟨rest, begins⟩ := loading paths some
    have kind := (findAll_raises later).imp_left Misplaced.mistyped
    refine Ends.behind ?_ known
    rw [begins]
    exact (loadStepsFor_ends later kind form).before rest
  · exact absurd last not_raises_pure

theorem listSteps_ends (reads : Arguments.read listForm.options true given = .ok arguments)
    (alone : arguments.positional = [])
    (raises : Raises ((Setting.paths arguments).read config) start fault) :
    Ends (listSteps config given) start fault := by
  refine Ends.behind ?_ (ofUsage_ok.2 ⟨reads, rfl⟩)
  rw [alone]
  exact paths_end listForm (fun paths _ => ⟨_, rfl⟩) raises

theorem preview_ends {path : String} (reads : Arguments.read previewForm.options true given = .ok arguments)
    (one : arguments.positional = [path])
    (found : requirePaths previewForm "FEATURE_FILE" [path] start = (.ok (), start))
    (raises : Raises ((Setting.paths arguments).read config) start fault) :
    Ends (preview config given) start fault := by
  refine Ends.behind ?_ (ofUsage_ok.2 ⟨reads, rfl⟩)
  dsimp only
  rw [one]
  refine Ends.behind ?_ found
  refine paths_end previewForm (fun paths some => ?_) raises
  cases paths with
  | nil => exact absurd rfl some
  | cons first rest => exact ⟨_, rfl⟩

theorem isReported_of_mistyped (mistyped : fault.isMistyped = true) : isReported fault = false := by
  unfold isReported
  split
  · cases mistyped
  · rcases (Bool.or_eq_true _ _).mp mistyped with kind | kind <;> rw [eq_of_beq kind] <;> rfl

theorem run_ends (reads : readRun config given ready = (.ok (arguments, formats, directory), mid))
    (raises : Raises (runBody config arguments formats directory) mid.watching fault)
    (kind : fault.isMistyped = false → isReported fault = true) : Ends (run config given) ready fault := by
  obtain ⟨after, escapes⟩ := raises
  -- Whatever escapes from the body is handled in one place, and left as it is if its kind is not listed there.
  have quits := run_of_body reads escapes
  refine ⟨fun mistyped => ⟨cleanUp after, ?_⟩, fun other => ?_⟩
  · rw [Escapes, quits, quit, isReported_of_mistyped mistyped]
    rfl
  · rw [quit, kind other] at quits
    refine ⟨1, after.errors ++ "Error: ", _, quits, by decide, ?_⟩
    simp [cleanUp, String.append_assoc]

theorem readRun_raises (reads : Arguments.read runForm.options true given = .ok arguments)
    (known : ((arguments.values "--report").find? fun format => (ReportFormat.ofName? format).isNone) = none)
    (some : arguments.positional ≠ [])
    (found : requirePaths runForm "FEATURE_FILES..." arguments.positional ready = (.ok (), ready))
    (raises : Raises ((Setting.report arguments).read config) ready fault) :
    Raises (readRun config given) ready fault := by
  have arrived := (raises_of_report fun _ _ => not_raises_pure).1 raises
  refine raises_bind.2 (.inr ⟨arguments, ready, ofUsage_ok.2 ⟨reads, rfl⟩, ?_⟩)
  dsimp only
  rw [known]
  cases positional : arguments.positional with
  | nil => exact absurd positional some
  | cons path rest =>
    rw [positional] at found
    refine raises_bind.2 (.inr ⟨(), ready, found, ?_⟩)
    exact (raises_of_report fun _ _ => not_raises_pure).2 arrived

theorem prepare_of_paths (raises : Raises ((Setting.paths arguments).read config) start fault) :
    Raises (prepare config arguments) start fault := by
  rcases raises_bind.1 raises with here | ⟨paths, mid, known, later⟩
  · exact raises_bind.2 (.inl here)
  · rcases raises_bind.1 later with later | ⟨_, _, _, last⟩
    · exact raises_bind.2 (.inr ⟨paths, mid, known, raises_bind.2 (.inl (loadSteps_raises later))⟩)
    · exact absurd last not_raises_pure

theorem prepare_of_helpers {count : Nat} {loaded : Workspace}
    (named : stepPaths config arguments start = (.ok paths, start))
    (loads : loadSteps paths start = (.ok count, loaded))
    (raises : Raises (Setting.helpers.read config)
      (loaded.telling ["Loaded " ++ toString count ++ " step definitions"]) fault) :
    Raises (prepare config arguments) start fault := by
  refine raises_bind.2 (.inr ⟨paths, start, named, raises_bind.2 (.inr ⟨count, loaded, loads, ?_⟩)⟩)
  exact raises_bind.2 (.inr ⟨(), _, echo_eq _, raises⟩)

theorem reported_of_read {setting : Setting} (raises : Raises (setting.read config) start fault)
    (other : fault.isMistyped = false) : isReported fault = true := by
  rcases read_cases raises with misfit | ⟨path, rfl⟩ | kind
  · rw [misfit.mistyped] at other
    cases other
  · rfl
  · exact isReported_of_framework (by rw [kind]; rfl)

theorem Comes.ends {name : String} {setting : Setting} (comes : Comes config given ready name setting start)
    (raises : Raises (setting.read config) start fault) :
    ∃ command, command? name = some command ∧ Ends (command config given) ready fault := by
  cases comes with
  | listing reads alone => exact ⟨_, rfl, listSteps_ends reads alone raises⟩
  | previewing reads one found => exact ⟨_, rfl, preview_ends reads one found raises⟩
  | reporting reads known some found =>
    have mistyped := (reportMisfit_iff.2 ((raises_of_report fun _ _ => not_raises_pure).1 raises)).mistyped
    exact ⟨_, rfl, (Ends.of_mistyped (readRun_raises reads known some found raises) mistyped).before _⟩
  | loading reads =>
    have prepares := prepare_of_paths raises
    exact ⟨_, rfl, run_ends reads (raises_bind.2 (.inl prepares)) (reported_of_read raises)⟩
  | building reads named loads =>
    have prepares := prepare_of_helpers named loads raises
    exact ⟨_, rfl, run_ends reads (raises_bind.2 (.inl prepares)) (reported_of_read raises)⟩

end Commands

/-- Reading a setting of an accepted configuration raises a fault of types or members exactly over a value
that cannot be used, and then the fault escapes from the command line. Any other fault of reading it is
reported. -/
theorem settings_read {arguments given : List String} {workspace ready start : Workspace} {name : String}
    {config : Config} {setting : Setting} (calls : Calls arguments workspace name config given ready)
    (comes : Comes config given ready name setting start) (fault : Fault) :
    (Raises (setting.read config) start fault ∧ fault.isMistyped = true ↔
      Setting.Misfit config start fault setting) ∧
    (Setting.Misfit config start fault setting → Raises (runProgram arguments) workspace fault) ∧
    (Raises (setting.read config) start fault → fault.isMistyped = false →
      Reports (runProgram arguments) workspace fault) := by
  have ends (raises : Raises (setting.read config) start fault) :
      Ends (runProgram arguments) workspace fault := by
    obtain ⟨command, known, ends⟩ := comes.ends raises
    exact ends.of_eq (calls.runProgram known)
  refine ⟨⟨?_, fun misfit => ⟨misfit.raises, misfit.mistyped⟩⟩, fun misfit => ?_,
    fun raises other => (ends raises).reports other⟩
  · rintro ⟨raises, mistyped⟩
    rcases read_cases raises with misfit | ⟨path, rfl⟩ | kind
    · exact misfit
    · cases mistyped
    · simp [Fault.isMistyped, kind] at mistyped
  · exact (ends misfit.raises).raises misfit.mistyped

/-- A workspace with a configuration whose paths of step files and part on reports are null. -/
def nullWorkspace : Workspace :=
  { wellWorkspace ["Feature: F"] with
    tree := ⟨⟨"/", []⟩, [(["f"], "Feature: F"), (["c.yaml"], "steps:\n  paths:\nreport:\n")]⟩ }

def nullConfig : Config :=
  (configure (some "c.yaml") nullWorkspace).1.toOption.getD bareConfig

def nullReady : Workspace :=
  (configure (some "c.yaml") nullWorkspace).2

def nullFault : Fault :=
  .misuse "Value after * must be an iterable, not NoneType"

theorem null_calls :
    Calls ["-c", "c.yaml", "list-steps"] nullWorkspace "list-steps" nullConfig [] nullReady := by
  have read : ((Arguments.read programForm.options false ["-c", "c.yaml", "list-steps"]).toOption.map
      fun program => (program.options, program.positional)) =
        some ([("--config", "c.yaml")], ["list-steps"]) := by decide +kernel
  obtain ⟨⟨options, positional⟩, known, same⟩ := Option.map_eq_some_iff.1 read
  cases same
  refine ⟨⟨_, eq_ok_of_toOption known, rfl, ?_⟩, rfl⟩
  exact ok_of_isSome bareConfig (by decide +kernel)

theorem null_comes : Comes nullConfig [] nullReady "list-steps" (.paths ⟨[], []⟩) nullReady :=
  .listing rfl rfl

theorem settings_read_null :
    Calls ["-c", "c.yaml", "list-steps"] nullWorkspace "list-steps" nullConfig [] nullReady ∧
    Comes nullConfig [] nullReady "list-steps" (.paths ⟨[], []⟩) nullReady ∧
    Setting.Misfit nullConfig nullReady nullFault (.paths ⟨[], []⟩) ∧
    Raises (runProgram ["-c", "c.yaml", "list-steps"]) nullWorkspace nullFault := by
  have null : pathsOf nullConfig = .null := by
    have same : (pathsOf nullConfig).same .null = true := by decide +kernel
    revert same
    cases pathsOf nullConfig <;> simp [Value.same, Value.number?]
  have unlisted : PathsMisfit nullReady.tree (pathsOf nullConfig) nullFault := by
    rw [null]
    exact .unlisted nofun
  have misfit : Setting.Misfit nullConfig nullReady nullFault (.paths ⟨[], []⟩) := .paths unlisted
  exact ⟨null_calls, null_comes, misfit, (settings_read null_calls null_comes nullFault).2.1 misfit⟩

/-- A configuration whose paths of step files and part on reports are null is accepted, and ends every
command that reads them with an exception and without a message. -/
theorem null_sections_escape :
    (Config.load ⟨nullWorkspace.tree.cwd, nullWorkspace.home, nullWorkspace.namedConfig⟩
      nullWorkspace.tree (some "c.yaml")).isOk = true ∧
    (∀ arguments ∈ [["-c", "c.yaml", "list-steps"], ["-c", "c.yaml", "preview", "f"]],
      ending (runProgram arguments nullWorkspace).1 = (1, some (.fault nullFault)) ∧
      (runProgram arguments nullWorkspace).2.errors = "") ∧
    ending (runProgram ["-c", "c.yaml", "run", "f"] nullWorkspace).1 =
      (1, some (.fault (.missingMember "NoneType" "get"))) ∧
    (runProgram ["-c", "c.yaml", "run", "f"] nullWorkspace).2.errors = "" ∧
    nullFault.kind = .type ∧ (Fault.missingMember "NoneType" "get").kind = .member := by
  decide +kernel

end FeatureRunner.Command
