import FeatureRunner.Proofs.Recorder.Deeds

/-!
What programs do up to their results. What ends behind a program has performed the program first; a
program that keeps a law has done only what the law allows. A uniform program is a process with what
follows it.
-/

namespace FeatureRunner

/-- A law that takes nothing for granted but that nothing is cancelled. -/
structure Law.Plain (law : Law) : Prop where
  closed : law.Closed
  assumes : ∀ act, law.assumes act
  grants : ∀ request answer, request.Fair answer → law.grants request answer
  numbers : ∀ number, law.numbers number

namespace Process

variable {law : Law} {stops : Process → Prop} {first last : Process} {deeds : List Act}

theorem Next.plain {act : Act} {before after : Process} (moves : Next mute act before after)
    (plain : law.Plain) : Next law act before after := by
  cases moves with
  | ask fair => exact .ask (plain.grants _ _ fair)
  | call => exact .call
  | leave => exact .leave
  | add => exact .add fun number _ => plain.numbers number
  | await uncancelled => exact .await uncancelled
  | join => exact .join
  | wait => exact .wait
  | yield => exact .yield

/-- What keeps a law does what the law allows, up to a stop. -/
theorem Keeps.performs (keeps : first.Keeps law stops) (plain : law.Plain)
    (performs : first.Performs deeds last) :
    last.Keeps law stops ∧ (∀ act ∈ deeds, law.allows act) ∨
      ∃ middle own rest, stops middle ∧ (∀ act ∈ own, law.allows act) ∧
        middle.Performs rest last ∧ deeds = own ++ rest := by
  induction performs with
  | refl => exact .inl ⟨keeps, by simp⟩
  | @acts deeds before after act _ moves active ih =>
    rcases ih with ⟨keeps, allowed⟩ | ⟨middle, own, rest, stopped, allowed, further, rfl⟩
    · by_cases stopped : stops before
      · exact .inr ⟨before, deeds, [act], stopped, allowed, .acts .refl moves active, rfl⟩
      · have allowed' := keeps.allowed stopped moves.act?
        refine .inl ⟨keeps.next stopped plain.closed (moves.plain plain) (plain.assumes act), ?_⟩
        simpa [or_imp, forall_and] using And.intro allowed allowed'
    · exact .inr ⟨middle, own, _, stopped, allowed, further.acts moves active, by simp⟩
  | @waits deeds before after act _ moves waits ih =>
    rcases ih with ⟨keeps, allowed⟩ | ⟨middle, own, rest, stopped, allowed, further, rfl⟩
    · by_cases stopped : stops before
      · exact .inr ⟨before, deeds, [], stopped, allowed, .waits .refl moves waits, by simp⟩
      · exact .inl ⟨keeps.next stopped plain.closed (moves.plain plain) (plain.assumes act), allowed⟩
    · exact .inr ⟨middle, own, rest, stopped, allowed, further.waits moves waits, rfl⟩

theorem Obeys.performs (obeys : first.Obeys law) (plain : law.Plain)
    (performs : first.Performs deeds last) : last.Obeys law ∧ ∀ act ∈ deeds, law.allows act := by
  rcases Keeps.performs obeys plain performs with
    kept | ⟨middle, own, rest, ended, allowed, further, rfl⟩
  · exact kept
  · obtain ⟨outcome, rfl, uncancelled⟩ := ended.eq_done
    obtain ⟨rfl, rfl⟩ := further.of_done
    exact ⟨.stop uncancelled, by simpa using allowed⟩

/-- What keeps a law is not cancelled. -/
theorem Obeys.uncancelled (obeys : first.Obeys law) (plain : law.Plain) :
    ¬first.Performs deeds (.done (.error .cancelled)) := by
  intro performs
  cases (Obeys.performs obeys plain performs).1 with
  | stop uncancelled => exact uncancelled rfl

theorem Performs.of_leave {role : Role} {outcome : Outcome} {rest : Process}
    (performs : (Process.leave role outcome rest).Performs deeds last) :
    deeds = [] ∧ last = .leave role outcome rest ∨
      ∃ deeds', deeds = .leave role outcome :: deeds' ∧ rest.Performs deeds' last := by
  rcases performs.head with same | ⟨_, _, deeds', moves, further, rfl⟩
  · exact .inl same
  · cases moves with
    | leave => exact .inr ⟨deeds', rfl, further⟩

theorem Performs.of_call {role : Role} {callable : Callable} {args : List Value}
    {branch : Outcome → Process}
    (performs : (Process.call role callable args branch).Performs deeds last) :
    deeds = [] ∧ last = .call role callable args branch ∨
      ∃ deeds', deeds = .call role callable args :: deeds' ∧
        ((callable.process role args).andThen branch).Performs deeds' last := by
  rcases performs.head with same | ⟨_, _, deeds', moves, further, rfl⟩
  · exact .inl same
  · cases moves with
    | call => exact .inr ⟨deeds', rfl, further⟩

/-- What follows a process follows its end. -/
theorem Performs.of_andThen_done {process : Process} {next : Outcome → Process} {outcome : Outcome}
    (performs : (process.andThen next).Performs deeds (.done outcome)) :
    ∃ result own rest, process.Performs own (.done result) ∧
      (next result).Performs rest (.done outcome) ∧ deeds = own ++ rest := by
  rcases performs.of_andThen with ⟨rest, ahead, ended⟩ | found
  · cases rest with
    | done result =>
      refine ⟨result, deeds, [], ahead, ?_, by simp⟩
      rw [ended]
      exact .refl
    | _ => cases ended
  · exact found

end Process

namespace Program

variable {α β : Type}

/-- What ends behind the program has come to a result of the program by deeds of some kind. -/
def Does (program : Program α) (did : Except Failure α → List Act → Prop) : Prop :=
  ∀ ⦃next : Except Failure α → Process⦄ ⦃deeds : List Act⦄ ⦃outcome : Outcome⦄,
    (program next).Performs deeds (.done outcome) → ∃ result own rest, did result own ∧
      (next result).Performs rest (.done outcome) ∧ deeds = own ++ rest

namespace Does

variable {did : Except Failure α → List Act → Prop}

theorem weaken {did' : Except Failure α → List Act → Prop} {program : Program α}
    (does : program.Does did) (weaker : ∀ result own, did result own → did' result own) :
    program.Does did' := by
  intro next deeds outcome performs
  obtain ⟨result, own, rest, known, further, split⟩ := does performs
  exact ⟨result, own, rest, weaker _ _ known, further, split⟩

theorem ofOutcome {result : Except Failure α} (known : did result []) :
    (Program.ofOutcome result).Does did :=
  fun _ deeds _ performs => ⟨result, [], deeds, known, performs, rfl⟩

theorem ask {request : Request} : (Program.ask request).Does fun result own =>
    own = [.ask request] ∧ ∃ answer, result = .ok answer := by
  intro next deeds outcome performs
  rcases performs.of_ask with ⟨_, ended⟩ | ⟨answer, rest, _, rfl, further⟩
  · cases ended
  · exact ⟨.ok answer, [_], rest, ⟨rfl, answer, rfl⟩, further, rfl⟩

theorem bind {did' : α → Except Failure β → List Act → Prop}
    {goal : Except Failure β → List Act → Prop} {program : Program α} {further : α → Program β}
    (first : program.Does did) (second : ∀ value, (further value).Does (did' value))
    (both : ∀ value result own rest, did (.ok value) own → did' value result rest →
      goal result (own ++ rest))
    (passes : ∀ failure own, did (.error failure) own → goal (.error failure) own) :
    (program >>= further).Does goal := by
  intro next deeds outcome performs
  obtain ⟨result, own, rest, known, ahead, rfl⟩ := first performs
  cases result with
  | ok value =>
    obtain ⟨result, own', rest', known', ahead', rfl⟩ := second value ahead
    exact ⟨result, own ++ own', rest', both _ _ _ _ known known', ahead', by simp⟩
  | error failure => exact ⟨_, own, rest, passes _ _ known, ahead, rfl⟩

theorem within {did : Outcome → List Act → Prop} {role : Role} {program : Program Value}
    (does : program.Does did) : (Program.within role program).Does fun result own =>
      ∃ own', did result own' ∧ own = own' ++ [.leave role result] := by
  intro next deeds outcome performs
  obtain ⟨result, own, rest, known, ahead, rfl⟩ := does performs
  rcases ahead.of_leave with ⟨_, ended⟩ | ⟨rest, rfl, further⟩
  · cases ended
  · exact ⟨result, own ++ [.leave role result], rest, ⟨own, known, rfl⟩, further, by simp⟩

/-- What keeps a law does what the law allows. -/
theorem ofEnsures {law : Law} {good : Except Failure α → Prop} {program : Program α}
    (ensures : program.Ensures law good) (plain : law.Plain) :
    program.Does fun result own => good result ∧ ∀ act ∈ own, law.allows act := by
  intro next deeds outcome performs
  have keeps : (program next).Keeps law fun process => ∃ result, good result ∧ process = next result :=
    ensures fun result known => .stop ⟨result, known, rfl⟩
  rcases keeps.performs plain performs with ⟨kept, allowed⟩ | ⟨_, own, rest, stopped, allowed, further, rfl⟩
  · cases kept with
    | stop stopped =>
      obtain ⟨result, known, ended⟩ := stopped
      refine ⟨result, deeds, [], ⟨known, allowed⟩, ?_, by simp⟩
      rw [← ended]
      exact .refl
  · obtain ⟨result, known, rfl⟩ := stopped
    exact ⟨result, own, rest, ⟨known, allowed⟩, further, rfl⟩

end Does

/-! ## Uniform programs -/

/-- What follows the program follows its result. -/
def Uniform (program : Program α) : Prop :=
  ∀ (next : Except Failure α → Process) (further : Outcome → Process),
    (program next).andThen further = program fun result => (next result).andThen further

namespace Uniform

theorem ofOutcome (result : Except Failure α) : (Program.ofOutcome result).Uniform :=
  fun _ _ => rfl

theorem ofExcept (answer : Except Fault α) : (Program.ofExcept answer).Uniform := by
  cases answer <;> exact fun _ _ => rfl

theorem ask (request : Request) : (Program.ask request).Uniform :=
  fun _ _ => rfl

theorem call (role : Role) (callable : Callable) (args : List Value) :
    (Program.call role callable args).Uniform :=
  fun _ _ => rfl

theorem bind {program : Program α} {further : α → Program β} (first : program.Uniform)
    (second : ∀ value, (further value).Uniform) : (program >>= further).Uniform := by
  intro next following
  rw [bind_apply, bind_apply, first]
  refine congrArg program (funext fun result => ?_)
  cases result with
  | ok value => exact second value next following
  | error failure => rfl

theorem within {role : Role} {program : Program Value} (uniform : program.Uniform) :
    (Program.within role program).Uniform := by
  intro next following
  unfold Program.within
  rw [uniform]
  rfl

theorem ite {condition : Prop} [Decidable condition] {first second : Program α}
    (uniform : first.Uniform) (uniform' : second.Uniform) :
    (if condition then first else second).Uniform := by
  by_cases holds : condition
  · rwa [if_pos holds]
  · rwa [if_neg holds]

/-- A uniform program is its process with what follows it. -/
theorem apply {program : Program Value} (uniform : program.Uniform) (next : Outcome → Process) :
    program next = program.toProcess.andThen next :=
  (uniform .done next).symm

theorem does {program : Program Value} (uniform : program.Uniform) :
    program.Does fun result own => program.toProcess.Performs own (.done result) := by
  intro next deeds outcome performs
  rw [uniform.apply] at performs
  exact performs.of_andThen_done

end Uniform

end Program

/-! ## What listeners are told -/

section Telling

variable (args : List Value) (subscribers : List Subscriber)

/-- Listeners are told one after the other, up to the first that fails. -/
theorem notifyAll_does {law : Law} (admits : law.AdmitsListeners) (plain : law.Plain)
    (hears : ∀ kind, .collector kind ∈ subscribers → law.allows (.ask (.collect kind args))) :
    (notifyAll args subscribers).Does fun result own => Uncancelled result ∧
      (∀ act ∈ own, law.allows act) ∧ ∀ failure, result = .error failure →
        own.getLast? = some (.leave .listener (.error failure)) := by
  induction subscribers with
  | nil => exact .ofOutcome ⟨uncancelled_ok _, by simp, by rintro _ ⟨⟩⟩
  | cons subscriber rest ih =>
    obtain ⟨inner, same, obeys⟩ := notify_within admits args subscriber fun kind same =>
      hears kind (same ▸ List.mem_cons_self)
    have told : (subscriber.notify args).Does fun result own => Uncancelled result ∧
        (∀ act ∈ own, law.allows act) ∧ own.getLast? = some (.leave .listener result) := by
      rw [same]
      refine (Program.Does.ofEnsures obeys plain).within.weaken ?_
      rintro result _ ⟨own, ⟨uncancelled, allowed⟩, rfl⟩
      refine ⟨uncancelled, ?_, by simp⟩
      simpa [or_imp, forall_and] using And.intro allowed (admits.leaves result)
    refine .bind told (fun _ => ih fun kind member => hears kind (List.mem_cons_of_mem _ member)) ?_ ?_
    · rintro _ result own rest ⟨_, allowed, _⟩ ⟨uncancelled, allowed', last⟩
      refine ⟨uncancelled, ?_, fun failure failed => ?_⟩
      · simpa [or_imp, forall_and] using And.intro allowed allowed'
      · rw [List.getLast?_append, last failure failed]
        rfl
    · rintro failure own ⟨uncancelled, allowed, last⟩
      exact ⟨uncancelled.error, allowed, by rintro _ ⟨⟩; exact last⟩

/-- An emission asks for its listeners and tells them. A failure is that of the last listener that has
been called. -/
theorem emitFor_does {law : Law} (admits : law.AdmitsListeners) (plain : law.Plain)
    (hears : ∀ kind, law.allows (.ask (.collect kind args))) (role : Role) (event : String) :
    (emitFor role event args).Does fun result own => ∃ heard,
      own = .ask (.subscribers role event args) :: heard ∧ Uncancelled result ∧
      (∀ act ∈ heard, law.allows act) ∧ ∀ failure, result = .error failure →
        heard.getLast? = some (.leave .listener (.error failure)) := by
  refine .bind .ask (fun subscribers => notifyAll_does args subscribers admits plain fun _ _ => hears _) ?_ ?_
  · rintro _ result _ heard ⟨rfl, _⟩ told
    exact ⟨heard, rfl, told⟩
  · rintro failure _ ⟨_, _, ⟨⟩⟩

theorem notify_uniform (subscriber : Subscriber) : (subscriber.notify args).Uniform := by
  match subscriber with
  | .callable (.script _ _ true _ _ _) =>
    exact .within (.bind (.ofExcept _) fun _ => .ofOutcome (.ok _))
  | .callable (.script _ _ false _ _ _) => exact .call _ _ _
  | .callable (.builtin _) => exact .call _ _ _
  | .collector _ =>
    exact .within (.bind (.ask _) fun _ => .bind (.ofExcept _) fun _ => .ofOutcome (.ok _))

theorem notifyAll_uniform : (notifyAll args subscribers).Uniform := by
  induction subscribers with
  | nil => exact .ofOutcome (.ok ())
  | cons subscriber rest ih => exact .bind (notify_uniform args subscriber) fun _ => ih

theorem emitFor_uniform (role : Role) (event : String) : (emitFor role event args).Uniform :=
  .bind (.ask _) fun _ => notifyAll_uniform args _

end Telling

namespace Actor

theorem callMethod_uniform (method : Method) (args : List Value) : (callMethod method args).Uniform := by
  cases method with
  | callable callable => exact .call _ _ _
  | echo => exact .bind (.bind (.ask _) fun _ => .ask _) fun _ => .ofOutcome (.ok _)
  | count number =>
    unfold callMethod
    match args with
    | [] => exact .ofOutcome _
    | [amount] => exact .bind (.ask _) fun _ => .ofExcept _
    | _ :: _ :: _ => exact .ofOutcome _

theorem findMethod_uniform (name : String) : (findMethod name).Uniform :=
  .ite (.ask _) (.ofOutcome (.ok none))

theorem performMethod_uniform (name : String) (args : List Value) :
    (performMethod name args).Uniform := by
  refine .bind (findMethod_uniform name) fun found => ?_
  cases found with
  | some method => exact callMethod_uniform method args
  | none => exact .ofOutcome _

theorem performAction_uniform (action : Value) (args : List Value) :
    (performAction action args).Uniform := by
  unfold performAction
  split
  · refine .bind (findMethod_uniform _) fun found => ?_
    cases found with
    | some method => exact callMethod_uniform method args
    | none =>
      refine .bind (findMethod_uniform "do") fun general => ?_
      cases general with
      | some method => exact callMethod_uniform method _
      | none => exact .ofOutcome _
  · exact .ofOutcome _

end Actor

end FeatureRunner
