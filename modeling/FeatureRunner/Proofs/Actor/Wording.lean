import FeatureRunner.Proofs.Actor.Twins

/-!
A method of the actor and the named action of that name. Their dispatches call the same methods of
helpers and end alike, and their traces differ in the wording of a line: unless no helper has the method
and one takes any action, for only a named action falls back on it.

Main statement: `method_dispatched_as_action`.
-/

namespace FeatureRunner
open FeatureRunner.World FeatureRunner.Actor

section Telling

variable {wording : Wording}

theorem Signature.bind_congr (signature : Signature) (name : String) {given given' : List Value}
    (same : given.length = given'.length) :
    (signature.bind name given).map (fun _ => ()) = (signature.bind name given').map fun _ => () := by
  unfold Signature.bind
  rw [same]
  dsimp only
  split
  · rfl
  · split
    · rfl
    · split <;> rfl

/-- A listener is told of the dispatch. One that suspends merely has its arguments counted. -/
theorem notify_twin (body : Callable) {more : List Value} {next next' : Outcome → Process}
    (further : ∀ outcome, (next outcome).Twin wording (next' outcome)) :
    ((Subscriber.callable body).notify (wording.method :: more) next).Twin wording
      ((Subscriber.callable body).notify (wording.action :: more) next') := by
  have counted (bound bound' : Except Fault (List Value))
      (alike : bound.map (fun _ => ()) = bound'.map fun _ => ()) :
      Process.Twin wording
        (Program.within .listener (do let _ ← Program.ofExcept bound; return .null) next)
        (Program.within .listener (do let _ ← Program.ofExcept bound'; return .null) next') := by
    cases bound <;> cases bound' <;> cases alike <;> exact .leave (further _)
  match body with
  | .script name signature true _ _ _ => exact counted _ _ (signature.bind_congr name (by simp))
  | .script _ _ false _ _ _ => exact .hear fun outcome => .leave (further outcome)
  | .builtin _ => exact .hear fun outcome => .leave (further outcome)

theorem notifyAll_twin {more : List Value} {told : List Subscriber}
    (scripted : ∀ subscriber ∈ told, ∃ body, subscriber = .callable body)
    {next next' : Except Failure Unit → Process}
    (further : ∀ result, (next result).Twin wording (next' result)) :
    (notifyAll (wording.method :: more) told next).Twin wording
      (notifyAll (wording.action :: more) told next') := by
  induction told with
  | nil => exact further _
  | cons subscriber rest ih =>
    obtain ⟨body, rfl⟩ := scripted subscriber List.mem_cons_self
    refine notify_twin body fun outcome => ?_
    cases outcome with
    | ok value => exact ih fun other member => scripted other (List.mem_cons_of_mem _ member)
    | error failure => exact further _

/-- Listeners are told of a dispatch. -/
theorem emitFor_twin {event : String} {more : List Value} {next next' : Except Failure Unit → Process}
    (further : ∀ result, (next result).Twin wording (next' result)) :
    (emitFor .actor event (wording.method :: more) next).Twin wording
      (emitFor .actor event (wording.action :: more) next') :=
  .tell fun _ scripted => notifyAll_twin scripted further

end Telling

namespace Actor

section Actions

variable {name : String} {args : List Value}

theorem performMethod_of_identifier (identifier : Text.isIdentifier name)
    (next : Outcome → Process) : performMethod name args next = .ask (.method name) fun found =>
      follow name (found.map (·, args)) next := by
  refine (findMethod_of_identifier identifier _).trans (Process.ask_congr fun found => ?_)
  cases found <;> rfl

theorem performAction_of_identifier (identifier : Text.isIdentifier name)
    (next : Outcome → Process) : performAction (.text name) args next = .ask (.method name) fun
      | some method => callMethod method args next
      | none => .ask (.method "do") fun found =>
        follow name (found.map (·, .text name :: args)) next := by
  refine (findMethod_of_identifier identifier _).trans (Process.ask_congr fun found => ?_)
  cases found with
  | some method => rfl
  | none =>
    have general : Text.isIdentifier "do" := by decide +kernel
    refine (findMethod_of_identifier general _).trans (Process.ask_congr fun found => ?_)
    cases found <;> rfl

/-- The two lines of a dispatch: its arguments have a text in both, or in neither. -/
theorem line_cases (name : String) (args : List Value) :
    (∃ own other, line name args = .ok own ∧ line "do" (.text name :: args) = .ok other) ∨
      ∃ fault, line name args = .error fault ∧ line "do" (.text name :: args) = .error fault := by
  cases args with
  | nil => exact .inl ⟨name, _, rfl, rfl⟩
  | cons first rest =>
    have whole : (Value.text name :: first :: rest).mapM (dispatchJson.write 0) =
        ((first :: rest).mapM (dispatchJson.write 0)).map
          (jsonText dispatchJson.asciiOnly name :: ·) := List.mapM_cons
    unfold line humanizeArgs
    rw [whole]
    cases (first :: rest).mapM (dispatchJson.write 0) with
    | error fault => exact .inr ⟨fault, rfl, rfl⟩
    | ok texts => exact .inl ⟨_, _, rfl, rfl⟩

/-- A method of the actor that is neither private nor `do` is dispatched under its name. -/
theorem invokeFor_of_method (role : Role) (named : name ≠ "do") (shown : ¬name.startsWith "_") :
    invokeFor role name args = dispatch role name args (performMethod name args) := by
  unfold invokeFor
  rw [if_neg (by simpa using named), methodName, if_neg shown]
  rfl

end Actions

variable {role : Role} {wording : Wording}

theorem perform_twin (identifier : Text.isIdentifier wording.name) {next next' : Outcome → Process}
    (further : ∀ outcome, (next outcome).Twin wording (next' outcome)) :
    (performMethod wording.name wording.args next).Twin wording
      (performAction (.text wording.name) wording.args next') := by
  rw [performMethod_of_identifier identifier, performAction_of_identifier identifier]
  refine .search (fun method => ?_) rfl (further _)
  have uniform := callMethod_uniform method wording.args
  change (callMethod method wording.args next).Twin wording (callMethod method wording.args next')
  rw [uniform.apply, uniform.apply]
  exact (Process.Twin.refl _).andThen further

theorem performStep_twin (identifier : Text.isIdentifier wording.name) :
    (performStep wording.method (performMethod wording.name wording.args)).toProcess.Twin wording
      (performStep wording.action (performAction (.text wording.name) wording.args)).toProcess := by
  refine perform_twin identifier fun outcome => ?_
  rcases outcome with (fault | _) | value
  · refine emitFor_twin fun result => ?_
    cases result <;> exact .refl _
  · exact .refl _
  · exact .refl _

theorem passing_twin :
    (passing wording.method).toProcess.Twin wording (passing wording.action).toProcess := by
  refine emitFor_twin fun result => ?_
  cases result <;> exact .refl _

theorem addFor_twin {own other : String} {body body' : Program Value}
    {next next' : Except Failure Nat → Process} (words : wording.Rewords own other)
    (work : body.toProcess.Twin wording body'.toProcess)
    (further : ∀ result, (next result).Twin wording (next' result)) :
    (Program.addFor role own body next).Twin wording (Program.addFor role other body' next') := by
  refine .add words work fun answer => ?_
  cases answer <;> exact further _

theorem addTasks_twin {own other : String} (words : wording.Rewords own other)
    (identifier : Text.isIdentifier wording.name) (next : Except Failure Nat → Process) :
    (addTasks role own wording.method (performMethod wording.name wording.args) next).Twin wording
      (addTasks role other wording.action
        (performAction (.text wording.name) wording.args) next) := by
  unfold addTasks
  rw [Program.bind_apply, Program.bind_apply]
  refine addFor_twin words (performStep_twin identifier) fun performed => ?_
  cases performed with
  | error failure => exact .refl _
  | ok task =>
    refine addFor_twin (.inl rfl) passing_twin fun passed => ?_
    cases passed <;> exact .refl _

/-- A method of the actor and the named action of its name are dispatched alike. -/
theorem dispatch_twin (identifier : Text.isIdentifier wording.name)
    (next : Except Failure Nat → Process) :
    (dispatch role wording.name wording.args
        (performMethod wording.name wording.args) next).Twin wording
      (dispatch role "do" (.text wording.name :: wording.args)
        (performAction (.text wording.name) wording.args) next) := by
  rcases line_cases wording.name wording.args with
    ⟨own, other, known, known'⟩ | ⟨fault, failed, failed'⟩
  · rw [dispatch_of_ok known, dispatch_of_ok known']
    refine .andThen (emitFor_twin fun _ => .refl _) fun outcome => ?_
    cases outcome with
    | ok value => exact addTasks_twin (.inr ⟨known, known'⟩) identifier next
    | error failure => exact .refl _
  · rw [dispatch_of_error failed, dispatch_of_error failed']
    exact .refl _

end Actor

/-! ## Listeners that log -/

/-- What a listener without a script does: it logs its name and what it is told. -/
def plainListener (name : String) : Callable :=
  loggingScript name (.list [.const (.text name), .arguments])

theorem plainListener_process (name : String) (given : List Value) :
    (plainListener name).process .listener given = .ask .logSection fun number : Nat =>
      .ask (.note number (.list [.text name, .list given])) fun _ => .done (.ok .null) := by
  have bound : Signature.bind ⟨[], 0, true, []⟩ name given = .ok given := by simp [Signature.bind]
  have runs : (plainListener name).process .listener given = Program.toProcess (do
      runActions .listener (← Program.ofExcept (Signature.bind ⟨[], 0, true, []⟩ name given))
        [.log (.list [.const (.text name), .arguments])]) := rfl
  rw [runs, bound]
  rfl

/-- A listener that only logs does the same whatever the wording is, if what it logs is alike. -/
theorem plainListener_twin {wording : Wording} {name : String} {more : List Value}
    (alike : wording.alike (.list [.text name, .list (wording.method :: more)])
      (.list [.text name, .list (wording.action :: more)])) :
    ((plainListener name).process .listener (wording.method :: more)).Twin wording
      ((plainListener name).process .listener (wording.action :: more)) := by
  rw [plainListener_process, plainListener_process]
  exact .ask fun number => .note alike (.done _)

/-- Of listeners, at most a plain one of this name is being called. -/
def World.callsPlain (name : String) (world : World) : Bool :=
  match world.act? with
  | some (_, .call .listener (.script known ⟨[], 0, true, []⟩ false false 0
      [.log (.list [.const (.text mark), .arguments])]) _) => known = name ∧ mark = name
  | some (_, .call .listener _ _) => false
  | _ => true

theorem World.eq_of_callsPlain {name : String} {world : World} {owner : Owner} {callable : Callable}
    {given : List Value} (plain : world.callsPlain name)
    (acts : world.act? = some (owner, .call .listener callable given)) :
    callable = plainListener name := by
  unfold World.callsPlain at plain
  rw [acts] at plain
  split at plain
  · rename_i same
    cases same
    obtain ⟨rfl, rfl⟩ := of_decide_eq_true plain
    rfl
  · cases plain
  · rename_i _ apart
    exact absurd rfl (apart _ _ _)

/-! ## Methods as named actions -/

section Methods

variable {wording : Wording} {owner : Owner} {role : Role} {next : Except Failure Nat → Process}
  {brings : Process → Prop} {passed : History} {start world : World}

/-- Wherever the actor is asked for a method in a run of the loop, it may as well be asked for the named
action of that name: the loop then goes on in the same way, helpers are called for the same, every task
ends with the same result or fault, and nothing differs but lines of the trace, where that of the named
action stands for that of the method, and what listeners log of the dispatch. Only where no helper has
the method no helper may take any action, for the named action would come to it. -/
theorem method_dispatched_as_action (identifier : Text.isIdentifier wording.name)
    (shown : ¬wording.name.startsWith "_") (named : wording.name ≠ "do")
    (running : start.current = some (owner, invokeFor role wording.name wording.args next))
    (run : Run (Occurrence brings) start passed world)
    (impartial : ∀ past ∈ passed, past.Impartial wording) : ∃ passed' world',
      Run (Occurrence brings)
        (start.proceed owner (actFor role (.text wording.name :: wording.args) next)) passed' world' ∧
      History.employed passed' = History.employed passed ∧
      (∀ number, world'.outcome? number = world.outcome? number) ∧
      List.Forall₂ wording.Rewords world.recorder.trace world'.recorder.trace ∧
      world.log.Alike wording.alike world'.log ∧
      world' = { world with
        recorder := { world.recorder with trace := world'.recorder.trace }
        log := world'.log, tasks := world'.tasks, current := world'.current } := by
  have process : (invokeFor role wording.name wording.args next).Twin wording
      (actFor role (.text wording.name :: wording.args) next) := by
    rw [invokeFor_of_method role named shown]
    exact dispatch_twin identifier next
  have atHand : start.proceed owner (invokeFor role wording.name wording.args next) = start := by
    rw [World.proceed, ← running]
  have twin := (Twin.refl start).proceed owner process
  rw [atHand] at twin
  obtain ⟨passed', world', run', twin', employed⟩ := twin.run run impartial
  refine ⟨passed', world', run', employed, twin'.outcome?, ?_⟩
  obtain ⟨lines, noted, _, _⟩ := twin'
  exact ⟨lines, noted, rfl⟩

end Methods

/-- Ends when the actor has been asked. -/
def asked : Except Failure Nat → Process
  | .ok _ => .done (.ok .null)
  | .error failure => .done (.error failure)

/-- Begins a session and asks the actor for a method. -/
def asking (name : String) (args : List Value) : Program Value := do
  Recorder.call .start
  let _ ← invokeFor .outside name args
  return .null

/-- The choir, where the actor is about to be asked for a method and a bell rings at every dispatch. -/
def askingWorld (name : String) (args : List Value) : World :=
  { singingWorld with
    dispatcher := Dispatcher.initial.on stepStarted (.scripted "bell")
    current := some (.caller, (asking name args).toProcess) }

/-- The actor is asked to hum, and the bell tells of it as it is told. -/
def humming : Wording where
  name := "hum"
  args := [.text "la"]
  alike value value' := value = value' ∨ ∃ more,
    value = .list [.text "bell", .list (stepRecord "hum" [.text "la"] :: more)] ∧
    value' = .list [.text "bell", .list (stepRecord "do" [.text "hum", .text "la"] :: more)]
  refl _ := .inl rfl

theorem method_dispatched_as_action_hum : ∃ next passed world passed' world',
    (World.play 1 (askingWorld "hum" [.text "la"])).2.current =
      some (.caller, invokeFor .outside "hum" [.text "la"] next) ∧
    Run (Occurrence fun _ => False) (World.play 1 (askingWorld "hum" [.text "la"])).2 passed world ∧
    (∀ past ∈ passed, past.Impartial humming) ∧
    world.recorder.trace = ["hum: \"la\"", "step passed", "return result"] ∧
    (History.employed passed).length = 1 ∧
    Run (Occurrence fun _ => False) ((World.play 1 (askingWorld "hum" [.text "la"])).2.proceed .caller
      (actFor .outside [.text "hum", .text "la"] next)) passed' world' ∧
    History.employed passed' = History.employed passed ∧
    (∀ number, world'.outcome? number = world.outcome? number) ∧
    List.Forall₂ humming.Rewords world.recorder.trace world'.recorder.trace ∧
    world.log.Alike humming.alike world'.log := by
  let start := (World.play 1 (askingWorld "hum" [.text "la"])).2
  have running : start.current = some (.caller, invokeFor .outside "hum" [.text "la"] asked) := rfl
  let played := World.play 60 start
  have run : Run (Occurrence fun _ => False) start played.1 played.2 := .play _ _
  have identifier : Text.isIdentifier humming.name := by decide +kernel
  have served : ∀ past ∈ played.1,
      (past.container.findMethod? past.readyHelpers "hum").isSome := by decide +kernel
  have scripted : ∀ past ∈ played.1,
      past.dispatcher.subscriptions = [(stepStarted, [.scripted "bell"])] := by decide +kernel
  have plain : ∀ past ∈ played.1, past.callsPlain "bell" := by decide +kernel
  have impartial : ∀ past ∈ played.1, past.Impartial humming := fun past member =>
    { served := fun _ _ missing => absurd (served past member) (by
        rw [show past.container.findMethod? past.readyHelpers "hum" = none from missing]
        simp)
      scripted := fun _ event _ _ listener heard => by
        simp only [Dispatcher.listeners, scripted past member, List.find?_cons, List.find?_nil] at heard
        split at heard
        · exact ⟨"bell", List.mem_singleton.1 heard⟩
        · cases heard
      heedless := fun _ callable more acts => by
        rw [eq_of_callsPlain (plain past member) acts]
        exact plainListener_twin (.inr ⟨more, rfl, rfl⟩) }
  obtain ⟨passed', world', run', employed, outcomes, lines, noted, _⟩ :=
    method_dispatched_as_action identifier (by decide +kernel) (by decide) running run impartial
  exact ⟨asked, played.1, played.2, passed', world', running, run, impartial, by decide +kernel,
    by decide +kernel, run', employed, outcomes, lines, noted⟩

/-- A method that no helper has, where one takes any action: the named action comes to that helper, and
the method fails. -/
theorem method_without_fallback : ∃ next passed world passed' world',
    (World.play 1 (askingWorld "sing" [.text "la"])).2.current =
      some (.caller, invokeFor .outside "sing" [.text "la"] next) ∧
    Run (Occurrence fun _ => False) (World.play 1 (askingWorld "sing" [.text "la"])).2 passed world ∧
    world.outcome? 2 = some (.error (.fault (.helperNotFound "sing"))) ∧
    Run (Occurrence fun _ => False) ((World.play 1 (askingWorld "sing" [.text "la"])).2.proceed .caller
      (actFor .outside [.text "sing", .text "la"] next)) passed' world' ∧
    world'.outcome? 2 = some (.ok (.list [.text "sing", .text "la"])) := by
  have answered : (World.play 60 ((World.play 1 (askingWorld "sing" [.text "la"])).2.proceed .caller
      (actFor .outside [.text "sing", .text "la"] asked))).2.outcome? 2 =
        some (.ok (.list [.text "sing", .text "la"])) := by rfl
  let played := World.play 60 (World.play 1 (askingWorld "sing" [.text "la"])).2
  have missed : (played.2.outcome? 2).map (Except.map fun _ => ()) =
      some (.error (.fault (.helperNotFound "sing"))) := by
    decide +kernel
  have failed : played.2.outcome? 2 = some (.error (.fault (.helperNotFound "sing"))) := by
    obtain ⟨outcome, given, failed⟩ := Option.map_eq_some_iff.1 missed
    cases outcome with
    | error failure =>
      obtain rfl := Except.error.inj failed
      exact given
    | ok value => cases failed
  exact ⟨asked, _, _, _, _, rfl, .play 60 _, failed, .play 60 _, answered⟩

end FeatureRunner
