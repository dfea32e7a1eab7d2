import FeatureRunner.Command

/-!
What parts of a command do to the workspace: what they print, and which of them leave the world and
the output alone.
-/

namespace FeatureRunner.Command
open Work

/-! ## Printing -/

/-- Lines as they are printed. -/
def printed (lines : List String) : String :=
  String.join (lines.map (· ++ "\n"))

section Answers

variable {workspace after : Workspace}

@[simp] theorem printed_nil : printed [] = "" := rfl

@[simp] theorem printed_cons (line : String) (rest : List String) :
    printed (line :: rest) = line ++ "\n" ++ printed rest := by
  simp [printed, String.join_cons]

@[simp] theorem printed_append (first rest : List String) :
    printed (first ++ rest) = printed first ++ printed rest := by
  induction first with
  | nil => simp
  | cons line first ih => simp [ih, String.append_assoc]

theorem echo_eq (line : String) : echo line workspace =
    (.ok (), { workspace with output := workspace.output ++ printed [line] }) := by
  simp [echo, update, String.append_assoc]

theorem echoAll_eq (lines : List String) : echoAll lines workspace =
    (.ok (), { workspace with output := workspace.output ++ printed lines }) := by
  induction lines generalizing workspace with
  | nil => simp [echoAll, Pure.pure]
  | cons line rest ih => simp [echoAll, Bind.bind, echo_eq, ih, String.append_assoc]

theorem ok_of_toOption {ε α σ : Type} {result : Except ε α × σ} {value : α}
    (known : result.1.toOption = some value) : result = (.ok value, result.2) := by
  obtain ⟨answer, state⟩ := result
  cases answer with
  | error reason => cases known
  | ok found =>
    cases known
    rfl

theorem ok_of_isSome {α : Type} {work : Work α} {workspace : Workspace} (default : α)
    (answers : (work workspace).1.toOption.isSome = true) :
    work workspace = (.ok ((work workspace).1.toOption.getD default), (work workspace).2) := by
  obtain ⟨value, known⟩ := Option.isSome_iff_exists.1 answers
  rw [known]
  exact ok_of_toOption known

theorem bind_eq {α β : Type} (work : Work α) (further : α → Work β) (workspace : Workspace) :
    (work >>= further) workspace = match work workspace with
      | (.ok value, workspace) => further value workspace
      | (.error stop, workspace) => (.error stop, workspace) := rfl

theorem bind_ok {α β : Type} {work : Work α} {further : α → Work β} {value : β}
    (answers : (work >>= further) workspace = (.ok value, after)) :
    ∃ first mid, work workspace = (.ok first, mid) ∧ further first mid = (.ok value, after) := by
  rw [bind_eq] at answers
  split at answers
  · rename_i first mid known
    exact ⟨first, mid, known, answers⟩
  · cases answers

theorem ofExcept_ok {α : Type} {answer : Except Fault α} {value : α}
    (answers : ofExcept answer workspace = (.ok value, after)) : answer = .ok value ∧ workspace = after := by
  cases answer with
  | error fault => cases answers
  | ok found =>
    cases answers
    exact ⟨rfl, rfl⟩

theorem onWorld_ok {α : Type} {change : World → Except Failure α × World} {value : α}
    (answers : onWorld change workspace = (.ok value, after)) :
    (change workspace.world).1 = .ok value ∧
      after = { workspace with world := (change workspace.world).2 } := by
  unfold onWorld at answers
  cases found : change workspace.world with
  | mk result world =>
    rw [found] at answers
    cases result with
    | error failure => cases answers
    | ok known =>
      cases answers
      exact ⟨rfl, rfl⟩

theorem readText_eq (path : String) (workspace : Workspace) : readText path workspace =
    match workspace.tree.read? (.ofText path) with
      | some text => (.ok text, workspace)
      | none => fail (.isDirectory (Path.ofText path).text) workspace := by
  change (match workspace.tree.read? (.ofText path) with
    | some text => (pure text : Work String)
    | none => fail (.isDirectory (Path.ofText path).text)) workspace = _
  cases workspace.tree.read? (.ofText path) <;> rfl

theorem readText_ok {path text : String} (answers : readText path workspace = (.ok text, after)) :
    workspace.tree.read? (.ofText path) = some text ∧ workspace = after := by
  rw [readText_eq] at answers
  cases found : workspace.tree.read? (.ofText path) with
  | none =>
    rw [found] at answers
    cases answers
  | some known =>
    rw [found] at answers
    cases answers
    exact ⟨rfl, rfl⟩

end Answers

/-! ## Reading -/

/-- Some work leaves the world and the output alone. -/
def Keeps {α : Type} (work : Work α) : Prop :=
  ∀ workspace, (work workspace).2.world = workspace.world ∧
    (work workspace).2.output = workspace.output

namespace Keeps

variable {α β : Type} {work : Work α}

theorem pure (value : α) : Keeps (Pure.pure value : Work α) :=
  fun _ => ⟨rfl, rfl⟩

theorem stop (reason : Stop) : Keeps (Work.stop reason : Work α) :=
  fun _ => ⟨rfl, rfl⟩

theorem get : Keeps Work.get :=
  fun _ => ⟨rfl, rfl⟩

theorem registry : Keeps Work.registry :=
  fun _ => ⟨rfl, rfl⟩

theorem tree : Keeps Work.tree :=
  fun _ => ⟨rfl, rfl⟩

theorem echoError (line : String) : Keeps (Work.echoError line) :=
  fun _ => ⟨rfl, rfl⟩

theorem onRegistry (change : Registry → Except Fault Unit × Registry) : Keeps (Work.onRegistry change) :=
  fun _ => ⟨rfl, rfl⟩

theorem ofExcept (answer : Except Fault α) : Keeps (Work.ofExcept answer) := by
  cases answer with
  | ok value => exact pure value
  | error fault => exact stop _

theorem bind {further : α → Work β} (first : Keeps work) (second : ∀ value, Keeps (further value)) :
    Keeps (work >>= further) := by
  intro workspace
  obtain ⟨world, output⟩ := first workspace
  rw [bind_eq]
  cases found : work workspace with
  | mk result mid =>
    rw [found] at world output
    cases result with
    | ok value => exact ⟨(second value mid).1.trans world, (second value mid).2.trans output⟩
    | error reason => exact ⟨world, output⟩

theorem ite {other : Work α} {condition : Prop} [Decidable condition] (first : Keeps work)
    (second : Keeps other) : Keeps (if condition then work else other) := by
  split
  · exact first
  · exact second

theorem refuse (form : CommandForm) (problem : UsageProblem) :
    Keeps (Command.refuse form problem : Work α) :=
  .bind (echoError _) fun _ => stop _

end Keeps

theorem register_keeps (registrations : List Registration) : Keeps (register registrations) := by
  induction registrations with
  | nil => exact .pure ()
  | cons registration rest ih =>
    exact .bind .registry fun _ => .bind (.ofExcept _) fun _ => .bind (fun _ => ⟨rfl, rfl⟩) fun _ => ih

theorem loadFile_keeps (file : StepFile) : Keeps (loadFile file) := by
  refine .bind (register_keeps _) fun _ => ?_
  split
  · exact .stop _
  · exact .onRegistry _

theorem loadAll_keeps (paths : List Path) : Keeps (loadAll paths) := by
  induction paths with
  | nil => exact .pure ()
  | cons path rest ih =>
    refine .bind (.bind .get fun workspace => ?_) fun _ => ih
    split
    · exact loadFile_keeps _
    · split
      · exact .pure ()
      · exact .stop _

theorem filesAt_keeps (path : Path) : Keeps (filesAt path) := by
  refine .bind .tree fun tree => ?_
  split
  · exact .pure _
  · split
    · exact .pure _
    · exact .stop _

theorem findAll_keeps (paths : List Value) : Keeps (findAll paths) := by
  induction paths with
  | nil => exact .pure _
  | cons path rest ih =>
    cases path with
    | text path => exact .bind (filesAt_keeps _) fun _ => .bind ih fun _ => .pure _
    | _ => exact .stop _

theorem loadSteps_keeps (paths : List Value) : Keeps (loadSteps paths) :=
  .bind .registry fun _ => .bind (findAll_keeps paths) fun _ => .bind (loadAll_keeps _) fun _ =>
    .bind .registry fun _ => .pure _

theorem stepPaths_keeps (config : Config) (arguments : Arguments) :
    Keeps (stepPaths config arguments) :=
  .bind (.ofExcept _) fun _ => .pure _

theorem requirePaths_keeps (form : CommandForm) (argument : String) (paths : List String) :
    Keeps (requirePaths form argument paths) := by
  induction paths with
  | nil => exact .pure ()
  | cons path rest ih =>
    refine .bind .tree fun tree => ?_
    split
    · exact ih
    · exact .refuse _ _

theorem readRun_keeps (config : Config) (given : List String) : Keeps (readRun config given) := by
  have reads : Keeps (readArguments runForm given) := by
    unfold readArguments ofUsage
    split
    · exact .pure _
    · exact .refuse _ _
  have formats (report : Value) (arguments : Arguments) : Keeps (reportFormats report arguments) := by
    unfold reportFormats
    dsimp only
    split
    · exact .bind (.ofExcept _) fun _ => .ofExcept _
    · exact .pure _
  have directory (report : Value) (arguments : Arguments) :
      Keeps (reportDirectory report arguments) := by
    unfold reportDirectory
    dsimp only
    split
    · exact .pure _
    · refine .bind (.ofExcept _) fun _ => ?_
      split
      · exact .pure _
      · exact .stop _
  have rest (arguments : Arguments) : Keeps (do
      requirePaths runForm "FEATURE_FILES..." arguments.positional
      let formats ← reportFormats (config.part "report") arguments
      let directory ← reportDirectory (config.part "report") arguments
      return (arguments, formats, directory) : Work _) :=
    .bind (requirePaths_keeps _ _ _) fun _ => .bind (formats _ _) fun _ =>
      .bind (directory _ _) fun _ => .pure _
  refine .bind reads fun arguments => ?_
  dsimp only
  split
  · exact .bind (.refuse _ _) fun _ =>
      .ite (.bind (.refuse _ _) fun _ => rest arguments) (rest arguments)
  · exact .ite (.bind (.refuse _ _) fun _ => rest arguments) (rest arguments)



/-! ## Output -/

/-- Some work adds to the output and takes nothing back. -/
def Adds {α : Type} (work : Work α) : Prop :=
  ∀ workspace, ∃ more, (work workspace).2.output = workspace.output ++ more

section Adds

variable {α β : Type} {work : Work α}

theorem Keeps.adds (keeps : Keeps work) : Adds work :=
  fun workspace => ⟨"", by rw [(keeps workspace).2, String.append_empty]⟩

theorem echo_adds (line : String) : Adds (echo line) :=
  fun workspace => ⟨printed [line], by rw [echo_eq]⟩

theorem Adds.bind {further : α → Work β} (first : Adds work) (second : ∀ value, Adds (further value)) :
    Adds (work >>= further) := by
  intro workspace
  obtain ⟨text, output⟩ := first workspace
  rw [bind_eq]
  cases found : work workspace with
  | mk result mid =>
    rw [found] at output
    cases result with
    | ok value =>
      obtain ⟨more, further⟩ := second value mid
      exact ⟨text ++ more, by rw [further, output, String.append_assoc]⟩
    | error reason => exact ⟨text, output⟩

theorem writeReports_adds (directory : Path) (results : Value) (formats : List Value) :
    Adds (writeReports directory results formats) := by
  induction formats with
  | nil => exact (Keeps.pure ()).adds
  | cons format rest ih =>
    have writes (file : WrittenFile) : Keeps (Work.write file) := fun _ => ⟨rfl, rfl⟩
    exact .bind Keeps.get.adds fun _ => .bind (Keeps.ofExcept _).adds fun file =>
      .bind (writes file).adds fun _ => .bind (echo_adds _) fun _ => ih

end Adds

end FeatureRunner.Command
