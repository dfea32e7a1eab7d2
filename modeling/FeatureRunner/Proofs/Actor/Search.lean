import FeatureRunner.Proofs.Actor.Block

/-!
The search for the helper that an action is for. A search is not interrupted, so all of it is
answered by the helpers that there are when it begins: the call that comes of it is the method of the
first helper that provides one under the name of the action, or else that of the first helper that
takes any action.

Main statement: `performAction_search`.
-/

namespace FeatureRunner
open FeatureRunner.World

/-! ## The first helper that will do -/

namespace Container

variable (ready : List (List (String × Callable)))

/-- The first of some helpers to provide a method of a name provides this one. -/
def First (name : String) (helpers : List (Value × Value)) (method : Method) : Prop :=
  ∃ earlier entry later, helpers = earlier ++ entry :: later ∧
    methodOf? ready name entry.2 = some method ∧ ∀ other ∈ earlier, methodOf? ready name other.2 = none

/-- None of some helpers provides a method of a name. -/
def Lacks (name : String) (helpers : List (Value × Value)) : Prop :=
  ∀ entry ∈ helpers, methodOf? ready name entry.2 = none

variable {ready} {container : Container} {name : String}

theorem first_of_findMethod? {method : Method} (found : container.findMethod? ready name = some method) :
    First ready name container.helpers method :=
  let ⟨earlier, entry, later, split, provides, lack⟩ := List.findSome?_eq_some_iff.1 found
  ⟨earlier, entry, later, split, provides, lack⟩

theorem lacks_of_findMethod? (none : container.findMethod? ready name = none) :
    Lacks ready name container.helpers :=
  List.findSome?_eq_none_iff.1 none

end Container

namespace Actor
open Container

/-- The call of a method that an action comes to among some helpers, or none. Only an identifier is
looked for under its own name, and a method for any action is given the name first. -/
inductive Reaches (ready : List (List (String × Callable))) (helpers : List (Value × Value))
    (action : String) (args : List Value) : Option (Method × List Value) → Prop
  | named {method : Method} (identifier : Text.isIdentifier action)
      (first : First ready action helpers method) :
      Reaches ready helpers action args (some (method, args))
  | general {method : Method} (unnamed : Text.isIdentifier action → Lacks ready action helpers)
      (first : First ready "do" helpers method) :
      Reaches ready helpers action args (some (method, .text action :: args))
  | nothing (unnamed : Text.isIdentifier action → Lacks ready action helpers)
      (lacks : Lacks ready "do" helpers) : Reaches ready helpers action args none

theorem findMethod_of_identifier {name : String} (identifier : Text.isIdentifier name)
    (next : Except Failure (Option Method) → Process) :
    findMethod name next = .ask (.method name) fun found => next (.ok found) :=
  congrFun (if_pos identifier) next

theorem findMethod_of_not_identifier {name : String} (apart : ¬Text.isIdentifier name)
    (next : Except Failure (Option Method) → Process) : findMethod name next = next (.ok none) :=
  congrFun (if_neg apart) next

/-- What an action does by the call that it has come to. -/
def follow (action : String) : Option (Method × List Value) → Program Value
  | some (method, given) => callMethod method given
  | none => Program.throw (.helperNotFound action)

theorem follow_uniform (action : String) (call : Option (Method × List Value)) :
    (follow action call).Uniform := by
  rcases call with _ | ⟨method, given⟩
  · exact .ofOutcome _
  · exact callMethod_uniform method given

theorem follow_obeys {law : Law} (admits : law.AdmitsActions) (action : String)
    (call : Option (Method × List Value)) : (follow action call).Obeys law := by
  rcases call with _ | ⟨method, given⟩
  · exact .throw _
  · exact callMethod_obeys admits method given

end Actor

/-! ## Searches -/

/-- Looks for a method in the next step. -/
def World.Searches (world : World) : Prop :=
  ∃ owner name, world.act? = some (owner, .ask (.method name))

/-- What may come from outside: processes that write nothing to the trace. While a process is at
hand, the loop stays, and while a method is looked for, so do the helpers. -/
def considerately (world next : World) : Prop :=
  courteously world next ∧ (world.Searches →
    next.container = world.container ∧ next.readyHelpers = world.readyHelpers)

section Searches

variable {owner : Owner} {name : String} {start world next : World} {passed : History}

theorem World.Run.courteous (run : Run considerately start passed world) :
    Run courteously start passed world :=
  run.mono fun _ _ comes => comes.1

theorem World.Flows.helpers (flows : world.Flows next) :
    next.container = world.container ∧ next.readyHelpers = world.readyHelpers := by
  change next.scene.container = world.scene.container ∧ next.scene.readyHelpers = world.scene.readyHelpers
  rw [flows.scene]
  exact ⟨rfl, rfl⟩

theorem World.Run.keeps_helpers {branch : Option Method → Process}
    (run : Run considerately start [] world)
    (running : start.current = some (owner, .ask (.method name) branch)) :
    world.container = start.container ∧ world.readyHelpers = start.readyHelpers := by
  generalize none : ([] : History) = passed at run
  induction run with
  | refl => exact ⟨rfl, rfl⟩
  | step => simp at none
  | @between _ world next run between ih =>
    obtain ⟨container, ready⟩ := ih none
    have current := (none ▸ run.courteous).rests (by simp [running])
    have searches : world.Searches := ⟨owner, name, act?_of_running (current.1.trans running) rfl⟩
    have stays : next.container = world.container ∧ next.readyHelpers = world.readyHelpers := by
      rcases between.calm_or with calm | comes
      · exact calm.toFlows.helpers
      · exact comes.2 searches
    exact ⟨stays.1.trans container, stays.2.trans ready⟩

/-- A search without a break, and what is at hand then. -/
structure Search (owner : Owner) (start : World) (sought : History) (back : World) (after : Process) :
    Prop where
  run : Run considerately start sought back
  looks : ∀ act ∈ sought.deeds owner, ∃ name, act = .ask (.method name)
  container : back.container = start.container
  ready : back.readyHelpers = start.readyHelpers
  back : back.current = some (owner, after)

theorem Search.trans {middle back : World} {sought further : History} {between after : Process}
    (search : Search owner start sought middle between)
    (search' : Search owner middle further back after) :
    Search owner start (sought ++ further) back after := by
  refine ⟨search.run.trans search'.run, ?_, search'.container.trans search.container,
    search'.ready.trans search.ready, search'.back⟩
  rw [History.deeds_append]
  exact List.forall_mem_append.2 ⟨search.looks, search'.looks⟩

theorem findMethod_search {branch : Except Failure (Option Method) → Process}
    (run : Run considerately start passed world)
    (running : start.current = some (owner, Actor.findMethod name branch))
    (gone : ¬world.AtHand owner) :
    ∃ found sought rest back, passed = sought ++ rest ∧ Run considerately back rest world ∧
      (Text.isIdentifier name → start.container.findMethod? start.readyHelpers name = found) ∧
      (¬Text.isIdentifier name → found = none) ∧
      Search owner start sought back (branch (.ok found)) := by
  by_cases identifier : Text.isIdentifier name
  · rw [Actor.findMethod_of_identifier identifier] at running
    cases passed with
    | nil => exact absurd ⟨_, (run.courteous.rests (by simp [running])).1.trans running⟩ gone
    | cons first rest =>
      have parts : Run considerately start ([] ++ first :: rest) world := run
      obtain ⟨begins, next, moved, further⟩ := parts.split
      obtain ⟨container, ready⟩ := begins.keeps_helpers running
      have running' := (begins.courteous.rests (by simp [running])).1.trans running
      have acts : first.act? = some (owner, .ask (.method name)) := act?_of_running running' rfl
      have reaches : Run considerately start [first] next := begins.step moved
      rw [step?_of_running running', runNode_ask, Option.some.injEq] at moved
      subst moved
      refine ⟨_, [first], rest, _, rfl, further, fun _ => rfl, absurd identifier,
        reaches, ?_, container, ready, ?_⟩
      · simp [History.deeds, World.deed?_of_act? acts, Act.Waits]
      · rw [← container, ← ready]
        rfl
  · rw [Actor.findMethod_of_not_identifier identifier] at running
    exact ⟨none, [], passed, start, rfl, run, fun named => absurd named identifier, fun _ => rfl,
      .refl, by simp [History.deeds], rfl, rfl, running⟩

/-- An action that is at hand comes to the call that it reaches among the helpers as they are. -/
theorem performAction_search {action : String} {args : List Value} {branch : Outcome → Process}
    (run : Run considerately start passed world)
    (running : start.current = some (owner, Actor.performAction (.text action) args branch))
    (gone : ¬world.AtHand owner) :
    ∃ call sought rest back, passed = sought ++ rest ∧ Run considerately back rest world ∧
      Actor.Reaches start.readyHelpers start.container.helpers action args call ∧
      Search owner start sought back (Actor.follow action call branch) := by
  obtain ⟨found, sought, rest, middle, rfl, further, named, unnamed, search⟩ :=
    findMethod_search run running gone
  cases found with
  | some method =>
    by_cases identifier : Text.isIdentifier action
    · exact ⟨some (method, args), sought, rest, middle, rfl, further,
        .named identifier (Container.first_of_findMethod? (named identifier)), search⟩
    · cases unnamed identifier
  | none =>
    have lacks (identifier : Text.isIdentifier action) :=
      Container.lacks_of_findMethod? (named identifier)
    obtain ⟨found, sought', rest, back, rfl, further, general, _, search'⟩ :=
      findMethod_search further search.back gone
    have general := general (by decide +kernel)
    rw [search.container, search.ready] at general
    refine ⟨found.map (·, .text action :: args), sought ++ sought', rest, back, by simp, further, ?_,
      search.trans ?_⟩
    · cases found with
      | some method => exact .general lacks (Container.first_of_findMethod? general)
      | none => exact .nothing lacks (Container.lacks_of_findMethod? general)
    · cases found <;> exact search'

end Searches

end FeatureRunner
