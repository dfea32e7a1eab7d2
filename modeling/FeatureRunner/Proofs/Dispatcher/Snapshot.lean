import FeatureRunner.Proofs.Dispatcher.Changes

/-!
Emissions work on a snapshot. Whoever is subscribed when an emission begins is called, in the order
of subscription, up to the first that fails, whatever happens to the subscriptions meanwhile; and
what they are after any changes is told by a ledger in which every removal crosses out one entry.

Main statement: `emission_on_snapshot`.
-/

namespace FeatureRunner
open FeatureRunner.World

/-! ## Ledgers -/

/-- Registrations in their order, each with whether it remains. -/
abbrev Ledger := List (Listener × Bool)

namespace Ledger

/-- Crosses out the earliest remaining registration of a listener, if there is one. -/
def strike (listener : Listener) : Ledger → Ledger
  | [] => []
  | (other, true) :: rest =>
    if other = listener then (other, false) :: rest else (other, true) :: strike listener rest
  | (other, false) :: rest => (other, false) :: strike listener rest

/-- The ledger of an event after one more change. -/
def note (event : String) (ledger : Ledger) : Edit → Ledger
  | .on other listener => if other = event then ledger ++ [(listener, true)] else ledger
  | .off other listener => if other = event then ledger.strike listener else ledger
  | .clear => []

def noteAll (event : String) (ledger : Ledger) (edits : List Edit) : Ledger :=
  edits.foldl (note event) ledger

/-- The listeners whose registrations remain. -/
def remaining (ledger : Ledger) : List Listener :=
  (ledger.filter (·.2)).map (·.1)

/-- Some registrations that all remain. -/
def ofListeners (listeners : List Listener) : Ledger :=
  listeners.map (·, true)

theorem remaining_ofListeners (listeners : List Listener) :
    (ofListeners listeners).remaining = listeners := by
  simp [remaining, ofListeners, List.filter_map, Function.comp_def]

theorem remaining_strike (listener : Listener) (ledger : Ledger) :
    (ledger.strike listener).remaining = ledger.remaining.erase listener := by
  induction ledger with
  | nil => rfl
  | cons entry rest ih =>
    obtain ⟨other, remains⟩ := entry
    cases remains with
    | false => exact ih
    | true =>
      rw [strike]
      split
      · next same =>
        subst same
        exact (List.erase_cons_head other _).symm
      · next apart =>
        change other :: remaining (strike listener rest) = (other :: remaining rest).erase listener
        rw [ih, List.erase_cons_tail (by simpa using apart)]

/-- Crossing out leaves every registration in its place. -/
theorem map_strike (listener : Listener) (ledger : Ledger) :
    (ledger.strike listener).map (·.1) = ledger.map (·.1) := by
  induction ledger with
  | nil => rfl
  | cons entry rest ih =>
    obtain ⟨other, remains⟩ := entry
    cases remains with
    | false => exact congrArg (other :: ·) ih
    | true =>
      rw [strike]
      split
      · rfl
      · exact congrArg (other :: ·) ih

theorem remaining_note (event : String) (ledger : Ledger) (dispatcher : Dispatcher)
    (known : dispatcher.listeners event = ledger.remaining) (edit : Edit) :
    (edit.apply dispatcher).listeners event = (ledger.note event edit).remaining := by
  cases edit with
  | on other listener =>
    rw [Edit.apply, listeners_on, note]
    by_cases same : event = other
    · subst same
      simp [known, remaining]
    · rw [if_neg same, if_neg (Ne.symm same), known]
  | off other listener =>
    rw [Edit.apply, listeners_off, note]
    by_cases same : event = other
    · subst same
      rw [if_pos rfl, if_pos rfl, remaining_strike, known]
    · rw [if_neg same, if_neg (Ne.symm same), known]
  | clear => rfl

end Ledger

/-- The listener that a change subscribes to an event. -/
def Edit.added? (event : String) : Edit → Option Listener
  | on other listener => if other = event then some listener else none
  | off .. | clear => none

/-- How the listeners of an event come about, given who was there at first: every registration that
was made stands in the ledger in its order, and the listeners are those that remain in it. -/
structure Ledger.Accounts (event : String) (first : List Listener) (edits : List Edit)
    (listeners : List Listener) : Prop where
  entries : ((ofListeners first).noteAll event edits).map (·.1) =
    first ++ edits.filterMap (Edit.added? event)
  remaining : listeners = ((ofListeners first).noteAll event edits).remaining

theorem Ledger.map_noteAll {event : String} {edits : List Edit} (kept : .clear ∉ edits)
    (ledger : Ledger) : (ledger.noteAll event edits).map (·.1) =
      ledger.map (·.1) ++ edits.filterMap (Edit.added? event) := by
  induction edits generalizing ledger with
  | nil => exact (List.append_nil _).symm
  | cons edit edits ih =>
    obtain ⟨other, kept⟩ := List.ne_and_not_mem_of_not_mem_cons kept
    refine (ih kept (ledger.note event edit)).trans ?_
    cases edit with
    | on event' listener =>
      by_cases same : event' = event <;> simp [Ledger.note, Edit.added?, same]
    | off event' listener =>
      by_cases same : event' = event <;>
        simp [Ledger.note, List.filterMap_cons, Edit.added?, same, map_strike]
    | clear => exact absurd rfl other

/-- Whatever has been changed: the listeners of an event are those that remain in its ledger. -/
theorem listeners_applyAll (dispatcher : Dispatcher) (event : String) (edits : List Edit) :
    (Edit.applyAll edits dispatcher).listeners event =
      ((Ledger.ofListeners (dispatcher.listeners event)).noteAll event edits).remaining := by
  have known := (Ledger.remaining_ofListeners (dispatcher.listeners event)).symm
  generalize Ledger.ofListeners (dispatcher.listeners event) = ledger at known ⊢
  induction edits generalizing dispatcher ledger with
  | nil => exact known
  | cons edit edits ih =>
    exact ih _ _ (Ledger.remaining_note event ledger dispatcher known edit)

theorem accounts_since (dispatcher : Dispatcher) (event : String) {since : List Edit}
    (kept : .clear ∉ since) : Ledger.Accounts event (dispatcher.listeners event) since
      ((Edit.applyAll since dispatcher).listeners event) where
  entries := by
    rw [Ledger.map_noteAll kept]
    simp [Ledger.ofListeners, Function.comp_def]
  remaining := listeners_applyAll dispatcher event since

/-- Of what was there before the last time that all was cleared nothing remains. -/
theorem accounts_cleared (dispatcher : Dispatcher) (event : String) (before : List Edit)
    {since : List Edit} (kept : .clear ∉ since) : Ledger.Accounts event [] since
      ((Edit.applyAll (before ++ .clear :: since) dispatcher).listeners event) := by
  rw [Edit.applyAll_append]
  exact accounts_since (Edit.applyAll before dispatcher).clear event kept

/-! ## Calls that never give way -/

/-- Nothing gives way, and nothing is called that may. -/
def unwaiting : Law where
  allows
    | .call _ callable _ => callable.suspends = false
    | act => ¬act.Waits
  assumes _ := True
  grants _ _ := True
  covers := False

theorem unwaiting_listeners : unwaiting.AdmitsListeners where
  collects _ _ _ _ _ _ _ _ := id
  calls _ _ steady := steady
  leaves _ := id

theorem unwaiting_closed : unwaiting.Closed := by
  intro role callable args steady
  refine callable.process_obeys (steady ▸ ?_) args
  exact { unwaiting_listeners with
    asks := fun _ _ => id
    adds := fun _ _ _ => id
    works := False.elim
    awaits := nofun
    waits := nofun }

theorem notify_obeys (args : List Value) (subscriber : Subscriber) :
    (subscriber.notify args).toProcess.Obeys unwaiting := by
  obtain ⟨inner, same, obeys⟩ := notify_within unwaiting_listeners args subscriber fun _ _ => id
  rw [same]
  exact (Program.Obeys.within obeys fun _ => id).toProcess

/-- What follows a call begins with how it has ended, and no call is over at once. -/
theorem notify_eq (args : List Value) (subscriber : Subscriber) :
    (∀ follow, subscriber.notify args follow =
      (subscriber.notify args).toProcess.andThen follow) ∧
    ∀ outcome, (subscriber.notify args).toProcess ≠ .done outcome := by
  cases subscriber with
  | callable callable =>
    cases callable with
    | script name signature suspends nameless line actions =>
      cases suspends with
      | false => exact ⟨fun _ => rfl, fun _ => Process.noConfusion⟩
      | true =>
        refine ⟨fun follow => ?_, fun outcome => ?_⟩ <;>
          cases bound : signature.bind name args <;>
            simp [Subscriber.notify, Program.within, Program.toProcess, Program.bind_apply, bound,
              Program.ofExcept, Program.throw, Program.pure_apply, Process.andThen]
    | builtin kind => exact ⟨fun _ => rfl, fun _ => Process.noConfusion⟩
  | collector event =>
    refine ⟨fun follow => Process.ask_congr fun answer => ?_, fun _ => Process.noConfusion⟩
    cases answer <;> rfl

section Steps

variable {owner : Owner} {world mid next : World} {process here there : Process}

/-- Where nothing gives way, a process goes on in the same way whatever is to follow its end. -/
theorem step_of_obeys (obeys : here.Obeys unwaiting) (going : ∀ outcome, here ≠ .done outcome)
    (world : World) (owner : Owner) : ∃ (next : World) (there : Process), there.Obeys unwaiting ∧
      (world.proceed owner here).step? = some (next.proceed owner there) ∧
      ∀ follow, (world.proceed owner (here.andThen follow)).step? =
        some (next.proceed owner (there.andThen follow)) := by
  have active {act : Act} (acts : here.act? = some act) (waits : act.Waits) : False := by
    have allowed := obeys.allowed acts
    cases act with
    | await | join | wait | yield => exact allowed waits
    | _ => exact waits
  cases here with
  | done outcome => exact absurd rfl (going outcome)
  | ask request branch =>
    exact ⟨_, _, obeys.next unwaiting_closed (.ask trivial) trivial, rfl, fun _ => rfl⟩
  | call role callable args branch =>
    refine ⟨_, _, obeys.next unwaiting_closed .call trivial, rfl, fun follow => ?_⟩
    exact congrArg (fun rest => some (World.proceed _ owner rest)) (Process.andThen_assoc _ _ _).symm
  | leave role outcome rest =>
    exact ⟨_, _, obeys.next unwaiting_closed .leave trivial, rfl, fun _ => rfl⟩
  | add role name body branch =>
    exact ⟨_, _, obeys.next unwaiting_closed (.add fun _ _ => trivial) trivial, rfl, fun _ => rfl⟩
  | await | join | wait | yield => exact (active rfl trivial).elim

end Steps

/-! ## Emissions -/

namespace World

/-- What may happen while a listener is being called: the queue grows, and the subscriptions are
changed. -/
inductive Aside (world : World) : List Edit → World → Prop
  | turn : Aside world [] world.nextTurn
  | edits (edits : List Edit) :
      Aside world edits { world with dispatcher := Edit.applyAll edits world.dispatcher }

/-- The subscriptions are changed from outside. -/
def Rearranged (world next : World) : Prop :=
  ∃ edits, next = { world with dispatcher := Edit.applyAll edits world.dispatcher }

end World

/-- What a process comes to for its owner, with all changes of the subscriptions until then. -/
inductive Reaches (owner : Owner) (world : World) (process : Process) :
    List Edit → World → Process → Prop
  | refl : Reaches owner world process [] world process
  | step {edits : List Edit} {mid next : World} {here there : Process}
      (before : Reaches owner world process edits mid here)
      (moved : (mid.proceed owner here).step? = some (next.proceed owner there)) :
      Reaches owner world process (edits ++ here.edit?.toList) next there
  | aside {edits more : List Edit} {mid next : World} {here : Process}
      (before : Reaches owner world process edits mid here) (aside : mid.Aside more next) :
      Reaches owner world process (edits ++ more) next here

/-- Some subscribers have been called with the arguments, one after the other, and every call has
come back without a failure. -/
inductive Notified (owner : Owner) (args : List Value) (world : World) :
    List Subscriber → List Edit → World → Prop
  | none : Notified owner args world [] [] world
  | call {told : List Subscriber} {subscriber : Subscriber} {early late : List Edit}
      {mid next : World} {value : Value} (before : Notified owner args world told early mid)
      (call : Reaches owner mid (subscriber.notify args).toProcess late next (.done (.ok value))) :
      Notified owner args world (told ++ [subscriber]) (early ++ late) next
  | aside {told : List Subscriber} {edits more : List Edit} {mid next : World}
      (before : Notified owner args world told edits mid) (aside : mid.Aside more next) :
      Notified owner args world told (edits ++ more) next

/-- How telling some subscribers ends: all have been called, or all up to one whose call has failed,
and then with its failure. -/
inductive Emitted (owner : Owner) (args : List Value) (world : World) :
    List Subscriber → List Edit → World → Except Failure Unit → Prop
  | all {subscribers : List Subscriber} {edits : List Edit} {next : World}
      (told : Notified owner args world subscribers edits next) :
      Emitted owner args world subscribers edits next (.ok ())
  | failed {told rest : List Subscriber} {subscriber : Subscriber} {early late : List Edit}
      {mid next : World} {failure : Failure} (before : Notified owner args world told early mid)
      (call : Reaches owner mid (subscriber.notify args).toProcess late next
        (.done (.error failure))) :
      Emitted owner args world (told ++ subscriber :: rest) (early ++ late) next (.error failure)

/-- What follows the call of a subscriber. -/
def afterCall (args : List Value) (rest : List Subscriber)
    (follow : Except Failure Unit → Process) : Outcome → Process
  | .ok _ => notifyAll args rest follow
  | .error failure => follow (.error failure)

/-- Some subscribers are being told: a call has not come back yet, and all before it have. -/
inductive Emitting (owner : Owner) (args : List Value) (follow : Except Failure Unit → Process)
    (world : World) : List Subscriber → List Edit → World → Prop
  | calling {told rest : List Subscriber} {subscriber : Subscriber} {early late : List Edit}
      {mid next : World} {here : Process} (before : Notified owner args world told early mid)
      (call : Reaches owner mid (subscriber.notify args).toProcess late next here)
      (going : ∀ outcome, here ≠ .done outcome)
      (running : next.current = some (owner, here.andThen (afterCall args rest follow))) :
      Emitting owner args follow world (told ++ subscriber :: rest) (early ++ late) next

section Emissions

variable {owner : Owner} {world mid next : World} {here there process : Process}
  {args : List Value} {subscribers told rest : List Subscriber} {edits more : List Edit}
  {follow : Except Failure Unit → Process} {result : Except Failure Unit}

/-- Nothing goes on with a process that has ended. -/
theorem going_of_moved
    (moved : (world.proceed owner here).step? = some (next.proceed owner there)) (outcome : Outcome) :
    here ≠ .done outcome := by
  rintro rfl
  have quiet : ({ world with current := none }.conclude owner outcome).current = none := by
    cases owner with
    | caller => rfl
    | task number => rw [conclude, framed_finish number outcome]
  have ran : { world with current := none }.conclude owner outcome = next.proceed owner there :=
    Option.some.inj moved
  rw [ran] at quiet
  cases quiet

theorem Reaches.obeys (reaches : Reaches owner world process edits next there)
    (obeys : process.Obeys unwaiting) : there.Obeys unwaiting := by
  induction reaches with
  | refl => exact obeys
  | @step edits mid next here there before moved ih =>
    obtain ⟨after, further, obeys, moves, -⟩ := step_of_obeys ih (going_of_moved moved) mid owner
    have same := congrArg World.current (Option.some.inj (moved.symm.trans moves))
    obtain rfl : there = further := by simpa [World.proceed] using same
    exact obeys
  | aside before aside ih => exact ih

theorem World.Aside.current (aside : world.Aside more next) : next.current = world.current := by
  cases aside <;> rfl

theorem World.Aside.dispatcher (aside : world.Aside more next) :
    next.dispatcher = Edit.applyAll more world.dispatcher := by
  cases aside <;> rfl

theorem World.Aside.proceed (aside : world.Aside more next) (process : Process) :
    (world.proceed owner process).Aside more (next.proceed owner process) := by
  cases aside with
  | turn => exact .turn
  | edits => exact .edits _

theorem World.Aside.between (aside : world.Aside more next) : world.Between Rearranged next := by
  cases aside with
  | turn => exact .turn
  | edits => exact .outside ⟨_, rfl⟩

/-- While a process is run, nothing else comes between its steps. -/
theorem aside_of_between (busy : world.current ≠ none) (between : world.Between Rearranged next) :
    ∃ more, world.Aside more next := by
  cases between with
  | turn => exact ⟨[], .turn⟩
  | gate gate idle => exact absurd idle busy
  | outside comes =>
    obtain ⟨edits, rfl⟩ := comes
    exact ⟨edits, .edits edits⟩

/-! ### What becomes of the subscriptions -/

theorem Reaches.dispatcher (reaches : Reaches owner world process edits next there) :
    next.dispatcher = Edit.applyAll edits world.dispatcher := by
  induction reaches with
  | refl => rfl
  | @step edits mid next here there before moved ih =>
    have ran : { mid with current := none }.runNode owner here = next.proceed owner there :=
      Option.some.inj moved
    have changed : ({ mid with current := none }.runNode owner here).dispatcher =
      Edit.applyAll here.edit?.toList mid.dispatcher := dispatcher_runNode owner here
    rw [ran] at changed
    rw [Edit.applyAll_append, ← ih]
    exact changed
  | aside before aside ih => rw [Edit.applyAll_append, ← ih, aside.dispatcher]

theorem Notified.dispatcher (before : Notified owner args world told edits next) :
    next.dispatcher = Edit.applyAll edits world.dispatcher := by
  induction before with
  | none => rfl
  | call before call ih => rw [Edit.applyAll_append, ← ih, call.dispatcher]
  | aside before aside ih => rw [Edit.applyAll_append, ← ih, aside.dispatcher]

theorem Emitted.dispatcher (emitted : Emitted owner args world subscribers edits next result) :
    next.dispatcher = Edit.applyAll edits world.dispatcher := by
  cases emitted with
  | all told => exact told.dispatcher
  | failed before call => rw [Edit.applyAll_append, ← before.dispatcher, call.dispatcher]

theorem Emitting.dispatcher (emitting : Emitting owner args follow world subscribers edits next) :
    next.dispatcher = Edit.applyAll edits world.dispatcher := by
  cases emitting with
  | calling before call =>
    rw [Edit.applyAll_append, ← before.dispatcher, call.dispatcher]

/-! ### Steps and runs -/

theorem notifyAll_cons (args : List Value) (subscriber : Subscriber) (rest : List Subscriber)
    (follow : Except Failure Unit → Process) : notifyAll args (subscriber :: rest) follow =
      (subscriber.notify args).toProcess.andThen (afterCall args rest follow) := by
  rw [← (notify_eq args subscriber).1]
  refine congrArg (subscriber.notify args) (funext fun outcome => ?_)
  cases outcome <;> rfl

/-- The end of an emission has just come. -/
def Ends (owner : Owner) (args : List Value) (follow : Except Failure Unit → Process)
    (subscribers : List Subscriber) (begun world : World) : Prop :=
  ∃ edits result, Emitted owner args begun subscribers edits world result ∧
    world.current = some (owner, follow result)

/-- The emission is still calling its subscribers, or its end has just come. -/
def Emits (owner : Owner) (args : List Value) (follow : Except Failure Unit → Process)
    (subscribers : List Subscriber) (begun world : World) : Prop :=
  (∃ edits, Emitting owner args follow begun subscribers edits world) ∨
    Ends owner args follow subscribers begun world

theorem emits_of_told (before : Notified owner args world told edits next)
    (running : next.current = some (owner, notifyAll args rest follow)) :
    Emits owner args follow (told ++ rest) world next := by
  cases rest with
  | nil => exact .inr ⟨edits, .ok (), .all (by simpa using before), running⟩
  | cons subscriber rest =>
    rw [notifyAll_cons] at running
    exact .inl ⟨_, .calling before .refl (notify_eq args subscriber).2 running⟩

theorem Emitting.step (emitting : Emitting owner args follow world subscribers edits mid)
    (moved : mid.step? = some next) : Emits owner args follow subscribers world next := by
  cases emitting with
  | @calling told rest subscriber early late _ _ here before call going running =>
    obtain ⟨after, there, -, moves, goes⟩ :=
      step_of_obeys (call.obeys (notify_obeys args subscriber)) going mid owner
    have here' : mid.proceed owner (here.andThen (afterCall args rest follow)) = mid := by
      rw [World.proceed, ← running]
    obtain rfl : after.proceed owner (there.andThen (afterCall args rest follow)) = next := by
      have ran := goes (afterCall args rest follow)
      rw [here', moved] at ran
      exact (Option.some.inj ran).symm
    have call : Reaches owner _ (subscriber.notify args).toProcess _
        (after.proceed owner (there.andThen (afterCall args rest follow))) there := call.step moves
    by_cases ended : ∃ outcome, there = .done outcome
    · obtain ⟨outcome, rfl⟩ := ended
      cases outcome with
      | ok value =>
        have told := Notified.call before call
        rw [List.append_cons]
        exact emits_of_told told rfl
      | error failure => exact .inr ⟨_, _, .failed before call, rfl⟩
    · exact .inl ⟨_, .calling before call (not_exists.1 ended) rfl⟩

theorem Emitting.busy (emitting : Emitting owner args follow world subscribers edits next) :
    next.current ≠ none := by
  obtain ⟨before, call, going, running⟩ := emitting
  simp [running]

theorem Emitting.between (emitting : Emitting owner args follow world subscribers edits mid)
    (between : mid.Between Rearranged next) :
    ∃ edits, Emitting owner args follow world subscribers edits next := by
  obtain ⟨more, aside⟩ := aside_of_between emitting.busy between
  obtain ⟨before, call, going, running⟩ := emitting
  exact ⟨_, .calling before (call.aside aside) going (aside.current.trans running)⟩

theorem Ends.between (ends : Ends owner args follow subscribers world mid)
    (between : mid.Between Rearranged next) : Ends owner args follow subscribers world next := by
  obtain ⟨edits, result, emitted, running⟩ := ends
  obtain ⟨more, aside⟩ := aside_of_between (by simp [running]) between
  refine ⟨edits ++ more, result, ?_, aside.current.trans running⟩
  cases emitted with
  | all told => exact .all (told.aside aside)
  | failed before call =>
    rw [List.append_assoc]
    exact .failed before (call.aside aside)

/-- From its beginning on an emission is calling its subscribers until its end comes. -/
theorem emits_of_run {begun : World} {passed : History} (run : Run Rearranged begun passed world)
    (emits : Emits owner args follow subscribers begun begun) :
    (∃ edits, Emitting owner args follow begun subscribers edits world) ∨
      ∃ past ∈ passed ++ [world], Ends owner args follow subscribers begun past := by
  induction run with
  | refl => exact emits.imp_right fun ends => ⟨begun, by simp, ends⟩
  | @step passed world next run moved ih =>
    rcases ih with ⟨edits, emitting⟩ | ⟨past, member, ends⟩
    · exact (emitting.step moved).imp_right fun ends => ⟨next, by simp, ends⟩
    · exact .inr ⟨past, List.mem_append_left _ member, ends⟩
  | @between passed world next run between ih =>
    rcases ih with ⟨edits, emitting⟩ | ⟨past, member, ends⟩
    · exact .inl (emitting.between between)
    · rcases List.mem_append.1 member with member | member
      · exact .inr ⟨past, List.mem_append_left _ member, ends⟩
      · obtain rfl := List.mem_singleton.1 member
        exact .inr ⟨next, by simp, ends.between between⟩

/-- What a call comes to, the process comes to that goes on behind it. -/
theorem Reaches.run (reaches : Reaches owner world process edits next there)
    (obeys : process.Obeys unwaiting) (follow : Outcome → Process) :
    ∃ passed, Run Rearranged (world.proceed owner (process.andThen follow)) passed
      (next.proceed owner (there.andThen follow)) := by
  induction reaches with
  | refl => exact ⟨[], .refl⟩
  | @step edits mid next here there before moved ih =>
    obtain ⟨passed, run⟩ := ih
    obtain ⟨after, further, -, moves, goes⟩ :=
      step_of_obeys (before.obeys obeys) (going_of_moved moved) mid owner
    have same := Option.some.inj (moved.symm.trans moves)
    obtain rfl : there = further := by simpa [World.proceed] using congrArg World.current same
    have same' := congrArg (World.proceed · owner (there.andThen follow)) same.symm
    exact ⟨_, run.step ((goes follow).trans (congrArg some same'))⟩
  | aside before aside ih =>
    obtain ⟨passed, run⟩ := ih
    exact ⟨_, run.between (aside.proceed _).between⟩

theorem Notified.run (before : Notified owner args world told edits next) (rest : List Subscriber)
    (follow : Except Failure Unit → Process) :
    ∃ passed, Run Rearranged (world.proceed owner (notifyAll args (told ++ rest) follow)) passed
      (next.proceed owner (notifyAll args rest follow)) := by
  induction before generalizing rest with
  | none => exact ⟨[], .refl⟩
  | @call told subscriber early late mid next value before call ih =>
    obtain ⟨passed, run⟩ := ih (subscriber :: rest)
    rw [notifyAll_cons] at run
    obtain ⟨later, further⟩ := call.run (notify_obeys args subscriber) (afterCall args rest follow)
    rw [← List.append_cons]
    exact ⟨_, run.trans further⟩
  | aside before aside ih =>
    obtain ⟨passed, run⟩ := ih rest
    exact ⟨_, run.between (aside.proceed _).between⟩

theorem Emitted.run (emitted : Emitted owner args world subscribers edits next result)
    (follow : Except Failure Unit → Process) :
    ∃ passed, Run Rearranged (world.proceed owner (notifyAll args subscribers follow)) passed
      (next.proceed owner (follow result)) := by
  cases emitted with
  | all told =>
    obtain ⟨passed, run⟩ := told.run [] follow
    rw [List.append_nil] at run
    exact ⟨passed, run⟩
  | @failed told rest subscriber early late mid _ failure before call =>
    obtain ⟨passed, run⟩ := before.run (subscriber :: rest) follow
    rw [notifyAll_cons] at run
    obtain ⟨later, further⟩ := call.run (notify_obeys args subscriber) (afterCall args rest follow)
    exact ⟨_, run.trans further⟩

end Emissions

/-- However the subscriptions are changed by those who are called, by emissions among what they do
and from outside: an emission calls those who were subscribed to its event when it began, with its
arguments and one after the other, until all calls have come back or one has failed, with whose
failure it ends; and it does end so if the calls do. The changes make the subscriptions what a
ledger of each event says, which later emissions begin with. -/
theorem emission_on_snapshot :
    (∀ (start begun world : World) (passed : History) (owner : Owner) (role : Role)
      (event : String) (args : List Value) (follow : Except Failure Unit → Process),
      start.current = some (owner, emitFor role event args follow) → start.step? = some begun →
      let subscribers := (start.dispatcher.listeners event).map start.subscriber
      (Run Rearranged begun passed world →
        (∃ edits, Emitting owner args follow begun subscribers edits world ∧
          world.dispatcher = Edit.applyAll edits start.dispatcher) ∨
        ∃ past ∈ passed ++ [world], ∃ edits result,
          Emitted owner args begun subscribers edits past result ∧
          past.current = some (owner, follow result) ∧
          past.dispatcher = Edit.applyAll edits start.dispatcher) ∧
      ∀ edits last result, Emitted owner args begun subscribers edits last result →
        ∃ passed, Run Rearranged begun passed (last.proceed owner (follow result))) ∧
    ∀ (dispatcher : Dispatcher) (event : String) (since : List Edit), .clear ∉ since →
      Ledger.Accounts event (dispatcher.listeners event) since
        ((Edit.applyAll since dispatcher).listeners event) ∧
      ∀ before, Ledger.Accounts event [] since
        ((Edit.applyAll (before ++ .clear :: since) dispatcher).listeners event) := by
  refine ⟨fun start begun world passed owner role event args follow running moved => ?_,
    fun dispatcher event since kept => ⟨accounts_since dispatcher event kept, fun before =>
      accounts_cleared dispatcher event before kept⟩⟩
  intro subscribers
  obtain rfl : start.proceed owner (notifyAll args subscribers follow) = begun := by
    have began : start.step? = some (start.proceed owner (notifyAll args subscribers follow)) := by
      rw [step?, running]
      rfl
    exact Option.some.inj (began.symm.trans moved)
  refine ⟨fun run => ?_, fun edits last result emitted => emitted.run follow⟩
  rcases emits_of_run run (emits_of_told .none rfl) with
    ⟨edits, emitting⟩ | ⟨past, member, edits, result, emitted, ended⟩
  · exact .inl ⟨edits, emitting, emitting.dispatcher⟩
  · exact .inr ⟨past, member, edits, result, emitted, ended, emitted.dispatcher⟩

/-- An emission among whose listeners one takes back another and adds a third, and one fails before
the last. -/
def departing : World :=
  let listeners := ["a", "b", "d", "a"].map Listener.scripted
  { World.initial ⟨0, none⟩ with
    dispatcher := Edit.applyAll (listeners.map (.on "left")) .initial
    listeners := [
      ("a", .script "a" ⟨[], 0, true, []⟩ false false 1 [.unsubscribe "left" "b", .subscribe "left" "c"]),
      ("d", .script "d" ⟨[], 0, true, []⟩ false false 3 [.raise .value none])]
    current := some (.caller, emitFor .outside "left" [] fun outcome =>
      .done (outcome.map fun _ => .null)) }

theorem emission_on_snapshot_departing :
    (∃ (begun world past : World) (passed : History) (edits : List Edit)
      (result : Except Failure Unit), departing.step? = some begun ∧
      Run Rearranged begun passed world ∧ world.current = none ∧ past ∈ passed ++ [world] ∧
      Emitted .caller [] begun ((["a", "b", "d", "a"].map Listener.scripted).map departing.subscriber)
        edits past result ∧
      past.dispatcher = Edit.applyAll edits departing.dispatcher ∧
      ∃ again last, Run Rearranged begun again last ∧ last.current = past.current) ∧
    Ledger.Accounts "left" (["a", "b"].map Listener.scripted)
      [.off "left" (.scripted "b"), .on "left" (.scripted "b")]
      (["a", "b"].map Listener.scripted) ∧
    Ledger.Accounts "left" [] [.on "left" (.scripted "b")] [.scripted "b"] := by
  let plain : Dispatcher :=
    Edit.applyAll ((["a", "b"].map Listener.scripted).map (.on "left")) .initial
  refine ⟨?_, ?_, ?_⟩
  · have moves : departing.step?.isSome := by decide +kernel
    obtain ⟨begun, moved⟩ := Option.isSome_iff_exists.1 moves
    have idle : ((departing.step?.map (World.play 40)).map fun played =>
        played.2.current.isNone) = some true := by decide +kernel
    rw [moved] at idle
    have quiet : (World.play 40 begun).2.current = none := by simpa using idle
    have subscribed : departing.dispatcher.listeners "left" =
        ["a", "b", "d", "a"].map Listener.scripted := by decide
    obtain ⟨now, ends⟩ := emission_on_snapshot.1 departing begun (World.play 40 begun).2
      (World.play 40 begun).1 .caller .outside "left" [] _ rfl moved
    rw [subscribed] at now ends
    rcases now (.play 40 begun) with ⟨edits, emitting, -⟩ |
      ⟨past, member, edits, result, emitted, running, changed⟩
    · exact absurd quiet emitting.busy
    · obtain ⟨again, run⟩ := ends edits past result emitted
      exact ⟨begun, _, past, _, edits, result, moved, .play 40 begun, quiet, member, emitted,
        changed, again, _, run, running.symm⟩
  · exact (emission_on_snapshot.2 plain "left"
      [.off "left" (.scripted "b"), .on "left" (.scripted "b")] (by decide)).1
  · exact (emission_on_snapshot.2 plain "left" [.on "left" (.scripted "b")] (by decide)).2 []

end FeatureRunner
