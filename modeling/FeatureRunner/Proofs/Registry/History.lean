import FeatureRunner.Proofs.Registry.Precedence

/-!
Registries over whole histories of registrations, of which any may fail, of clearings and of changes
of the policy. The definitions of a registry are those that the registrations since it was last
cleared have made, each under the policy of its time, and the first that matches a step text keeps it
until the registry is cleared.
-/

namespace FeatureRunner.Registry
open FeatureRunner.Text

/-! ## Registrations -/

/-- The definition that registering a callable as a mark says makes under a policy. -/
def define (whitespace : Value) (request : Callable × Mark) : Except Fault StepDefinition := do
  return ⟨lower request.2.keyword, ← StepPattern.compile request.2.pattern whitespace, request.1,
    request.2.description⟩

theorem compile_of_define {whitespace : Value} {request : Callable × Mark}
    {definition : StepDefinition} (defined : define whitespace request = .ok definition) :
    StepPattern.compile request.2.pattern whitespace = .ok definition.pattern := by
  unfold define at defined
  cases compiled : StepPattern.compile request.2.pattern whitespace with
  | error fault =>
    rw [compiled] at defined
    cases defined
  | ok pattern =>
    rw [compiled] at defined
    cases defined
    rfl

/-- Of registrations that are asked for at once, those that are tried: all up to the first that
fails. -/
def tried (whitespace : Value) : List (Callable × Mark) → List (Callable × Mark)
  | [] => []
  | request :: rest =>
    request :: if (define whitespace request).isOk then tried whitespace rest else []

/-- The definitions that come of registrations that are asked for at once. -/
def made (whitespace : Value) (requests : List (Callable × Mark)) : List StepDefinition :=
  (tried whitespace requests).filterMap fun request => (define whitespace request).toOption

/-- How registrations that are asked for at once end: with the fault of the first that fails. -/
def verdict (whitespace : Value) (requests : List (Callable × Mark)) : Except Fault Unit :=
  (requests.mapM (define whitespace)).map fun _ => ()

def extend (registry : Registry) (more : List StepDefinition) : Registry :=
  { registry with definitions := registry.definitions ++ more }

section Requests

variable (whitespace : Value) (request : Callable × Mark) (requests others : List (Callable × Mark))
  (registry : Registry)

theorem made_cons : made whitespace (request :: requests) =
    match define whitespace request with
    | .ok definition => definition :: made whitespace requests
    | .error _ => [] := by
  unfold made
  rw [tried]
  cases defined : define whitespace request <;>
    simp [defined, Except.isOk, Except.toBool, Except.toOption]

theorem verdict_cons : verdict whitespace (request :: requests) =
    match define whitespace request with
    | .ok _ => verdict whitespace requests
    | .error fault => .error fault := by
  unfold verdict
  rw [List.mapM_cons]
  cases define whitespace request with
  | error fault => rfl
  | ok definition => cases requests.mapM (define whitespace) <;> rfl

theorem verdict_append : verdict whitespace (requests ++ others) =
    match verdict whitespace requests with
    | .ok () => verdict whitespace others
    | .error fault => .error fault := by
  induction requests with
  | nil => rfl
  | cons request requests ih =>
    rw [List.cons_append, verdict_cons, verdict_cons]
    cases define whitespace request with
    | error fault => rfl
    | ok definition => exact ih

theorem made_append : made whitespace (requests ++ others) = made whitespace requests ++
    match verdict whitespace requests with
    | .ok () => made whitespace others
    | .error _ => [] := by
  induction requests with
  | nil => rfl
  | cons request requests ih =>
    rw [List.cons_append, made_cons, made_cons, verdict_cons]
    cases define whitespace request with
    | error fault => rfl
    | ok definition =>
      dsimp only
      rw [ih]
      rfl

variable {whitespace requests}

theorem made_of_ok (well : verdict whitespace requests = .ok ()) :
    List.Forall₂ (fun request definition => define whitespace request = .ok definition) requests
      (made whitespace requests) := by
  induction requests with
  | nil => exact .nil
  | cons request requests ih =>
    rw [verdict_cons] at well
    rw [made_cons]
    cases defined : define whitespace request with
    | error fault =>
      rw [defined] at well
      cases well
    | ok definition =>
      rw [defined] at well
      exact .cons defined (ih well)

/-- Where one fails, those before it have made their definitions, and it makes none. -/
theorem made_of_error {fault : Fault} (failed : verdict whitespace requests = .error fault) :
    ∃ passed request rest, requests = passed ++ request :: rest ∧
      define whitespace request = .error fault ∧
      List.Forall₂ (fun request definition => define whitespace request = .ok definition) passed
        (made whitespace requests) := by
  induction requests with
  | nil => cases failed
  | cons request requests ih =>
    rw [verdict_cons] at failed
    rw [made_cons]
    cases defined : define whitespace request with
    | error fault' =>
      rw [defined] at failed
      cases failed
      exact ⟨[], request, requests, rfl, defined, .nil⟩
    | ok definition =>
      rw [defined] at failed
      obtain ⟨passed, request', rest, rfl, fails, each⟩ := ih failed
      exact ⟨request :: passed, request', rest, rfl, fails, .cons defined each⟩

theorem extend_nil : registry.extend [] = registry := by
  simp [extend]

theorem extend_extend (first second : List StepDefinition) :
    (registry.extend first).extend second = registry.extend (first ++ second) := by
  simp [extend]

theorem add_eq (callable : Callable) (mark : Mark) :
    registry.add mark.keyword mark.pattern callable mark.description =
      (define registry.whitespace (callable, mark)).map fun definition =>
        registry.extend [definition] := by
  unfold add define
  cases StepPattern.compile mark.pattern registry.whitespace <;> rfl

theorem addMarks_eq (callable : Callable) (marks : List Mark) :
    addMarks callable marks registry =
      (verdict registry.whitespace (marks.map (callable, ·)),
        registry.extend (made registry.whitespace (marks.map (callable, ·)))) := by
  induction marks generalizing registry with
  | nil => exact Prod.ext rfl (extend_nil registry).symm
  | cons mark marks ih =>
    rw [addMarks, add_eq, List.map_cons, verdict_cons, made_cons]
    cases define registry.whitespace (callable, mark) with
    | error fault => exact Prod.ext rfl (extend_nil registry).symm
    | ok definition =>
      change addMarks callable marks (registry.extend [definition]) = _
      rw [ih, extend_extend]
      rfl

def requestsOf (functions : List MarkedFunction) : List (Callable × Mark) :=
  functions.flatMap fun marked => marked.marks.map (marked.callable, ·)

theorem addFunctions_eq (functions : List MarkedFunction) :
    addFunctions functions registry =
      (verdict registry.whitespace (requestsOf functions),
        registry.extend (made registry.whitespace (requestsOf functions))) := by
  induction functions generalizing registry with
  | nil => exact Prod.ext rfl (extend_nil registry).symm
  | cons marked functions ih =>
    have split : requestsOf (marked :: functions) =
        marked.marks.map (marked.callable, ·) ++ requestsOf functions := rfl
    rw [addFunctions, addMarks_eq, split, verdict_append, made_append]
    cases verdict registry.whitespace (marked.marks.map (marked.callable, ·)) with
    | error fault => simp
    | ok =>
      dsimp only
      rw [ih, extend_extend]
      rfl

end Requests

/-! ## Changes -/

/-- What is done to a registry. A decorator registers when it is applied. -/
inductive Change
  | register (callable : Callable) (mark : Mark)
  | registerModule (functions : List MarkedFunction)
  | clear
  | setPolicy (whitespace : Value)

namespace Change

def apply : Change → Registry → Except Fault Unit × Registry
  | register callable mark, registry =>
    match registry.add mark.keyword mark.pattern callable mark.description with
    | .ok extended => (.ok (), extended)
    | .error fault => (.error fault, registry)
  | registerModule functions, registry => registry.addModule functions
  | clear, registry => (.ok (), registry.clear)
  | setPolicy whitespace, registry => (.ok (), { registry with whitespace := whitespace })

def requests : Change → List (Callable × Mark)
  | register callable mark => [(callable, mark)]
  | registerModule functions => requestsOf (sourceOrder functions)
  | clear | setPolicy _ => []

def policy (whitespace : Value) : Change → Value
  | setPolicy whitespace => whitespace
  | _ => whitespace

/-- What a change that does not clear does: what it asks for is registered under the policy in
force, up to the first registration that fails. -/
theorem apply_eq {change : Change} (kept : change ≠ clear) (registry : Registry) :
    change.apply registry = (verdict registry.whitespace change.requests,
      { definitions := registry.definitions ++ made registry.whitespace change.requests
        whitespace := change.policy registry.whitespace }) := by
  cases change with
  | register callable mark =>
    unfold apply requests
    dsimp only
    rw [add_eq, made_cons, verdict_cons]
    cases define registry.whitespace (callable, mark) with
    | error fault => exact Prod.ext rfl (extend_nil registry).symm
    | ok definition => rfl
  | registerModule functions => exact addFunctions_eq registry (sourceOrder functions)
  | clear => exact absurd rfl kept
  | setPolicy whitespace => exact Prod.ext rfl (congrArg (Registry.mk · whitespace) (List.append_nil _).symm)

theorem apply_policy (change : Change) (registry : Registry) :
    (change.apply registry).2.whitespace = change.policy registry.whitespace := by
  cases change with
  | clear => rfl
  | _ => rw [apply_eq (by simp)]

end Change

/-! ## Histories -/

def after (changes : List Change) (registry : Registry) : Registry :=
  changes.foldl (fun registry change => (change.apply registry).2) registry

def policyAfter (whitespace : Value) (changes : List Change) : Value :=
  changes.foldl Change.policy whitespace

/-- The registrations that are tried in the course of some changes, each with the policy in force. -/
def attempts (whitespace : Value) : List Change → List (Value × Callable × Mark)
  | [] => []
  | change :: rest =>
    (tried whitespace change.requests).map (whitespace, ·) ++ attempts (change.policy whitespace) rest

def successes (attempts : List (Value × Callable × Mark)) : List StepDefinition :=
  attempts.filterMap fun (whitespace, request) => (define whitespace request).toOption

theorem after_append (first second : List Change) (registry : Registry) :
    after (first ++ second) registry = after second (after first registry) :=
  List.foldl_append

theorem after_policy (changes : List Change) (registry : Registry) :
    (after changes registry).whitespace = policyAfter registry.whitespace changes := by
  induction changes generalizing registry with
  | nil => rfl
  | cons change changes ih =>
    rw [policyAfter, List.foldl_cons, ← change.apply_policy registry]
    exact ih (change.apply registry).2

theorem successes_append (first second : List (Value × Callable × Mark)) :
    successes (first ++ second) = successes first ++ successes second :=
  List.filterMap_append

theorem successes_tried (whitespace : Value) (requests : List (Callable × Mark)) :
    successes ((tried whitespace requests).map (whitespace, ·)) = made whitespace requests := by
  simp [successes, made, List.filterMap_map]

theorem after_definitions {changes : List Change} (kept : .clear ∉ changes) (registry : Registry) :
    (after changes registry).definitions =
      registry.definitions ++ successes (attempts registry.whitespace changes) := by
  induction changes generalizing registry with
  | nil => exact (List.append_nil _).symm
  | cons change changes ih =>
    obtain ⟨other, kept⟩ := List.ne_and_not_mem_of_not_mem_cons kept
    change (after changes (change.apply registry).2).definitions = _
    rw [ih kept, Change.apply_eq other.symm, attempts, successes_append, successes_tried,
      List.append_assoc]

/-- A history is cut where the registry was cleared for the last time. -/
theorem exists_cleared (changes : List Change) : ∃ before since, changes = before ++ since ∧
    (before = [] ∨ ∃ earlier, before = earlier ++ [.clear]) ∧ .clear ∉ since := by
  induction changes with
  | nil => exact ⟨[], [], rfl, .inl rfl, nofun⟩
  | cons change changes ih =>
    obtain ⟨before, since, rfl, rfl | ⟨earlier, rfl⟩, kept⟩ := ih
    · cases change with
      | clear => exact ⟨[.clear], since, rfl, .inr ⟨[], rfl⟩, kept⟩
      | _ => exact ⟨[], _ :: since, rfl, .inl rfl, by simpa using kept⟩
    · exact ⟨change :: (earlier ++ [.clear]), since, rfl, .inr ⟨change :: earlier, rfl⟩, kept⟩

/-- The registry that some changes make of one that was created under a policy. -/
def built (whitespace : Value) (changes : List Change) : Registry :=
  after changes ⟨[], whitespace⟩

section Built

variable (whitespace : Value) (changes : List Change)

theorem built_definitions : ∃ before since, changes = before ++ since ∧
    (before = [] ∨ ∃ earlier, before = earlier ++ [.clear]) ∧ .clear ∉ since ∧
    (built whitespace changes).definitions =
      successes (attempts (policyAfter whitespace before) since) := by
  obtain ⟨before, since, rfl, begun, kept⟩ := exists_cleared changes
  have empty : (built whitespace before).definitions = [] := by
    -- Either nothing was registered yet, or the last change was to clear.
    rcases begun with rfl | ⟨earlier, rfl⟩
    · rfl
    · rw [built, after_append]
      rfl
  have policy : (built whitespace before).whitespace = policyAfter whitespace before :=
    after_policy before _
  refine ⟨before, since, rfl, begun, kept, ?_⟩
  rw [built, after_append]
  exact (after_definitions kept _).trans (by rw [← built, empty, policy, List.nil_append])

theorem built_compiled : (built whitespace changes).Compiled := by
  intro definition member
  obtain ⟨before, since, -, -, -, same⟩ := built_definitions whitespace changes
  rw [same] at member
  obtain ⟨⟨whitespace', request⟩, -, succeeded⟩ := List.mem_filterMap.1 member
  change (define whitespace' request).toOption = some definition at succeeded
  cases defined : define whitespace' request with
  | error fault =>
    rw [defined] at succeeded
    cases succeeded
  | ok made =>
    rw [defined] at succeeded
    cases succeeded
    exact ⟨_, _, compile_of_define defined⟩

end Built

/-- Whatever is done to a registry: its definitions are those of the registrations that have
succeeded since it was last cleared, in their order, each under the policy of its time; one that
fails makes none; a text belongs to the first definition that it matches, of which there is none only
if it matches none; and until the registry is cleared it keeps that definition and its parameters. -/
theorem registry_of_history (whitespace : Value) (changes : List Change) :
    (∃ before since, changes = before ++ since ∧
      (before = [] ∨ ∃ earlier, before = earlier ++ [.clear]) ∧ .clear ∉ since ∧
      (built whitespace changes).definitions =
        successes (attempts (policyAfter whitespace before) since)) ∧
    (∀ (change : Change) (fault : Fault), (change.apply (built whitespace changes)).1 = .error fault →
      ∃ passed request rest definitions, change.requests = passed ++ request :: rest ∧
        define (policyAfter whitespace changes) request = .error fault ∧
        List.Forall₂ (fun request definition =>
          define (policyAfter whitespace changes) request = .ok definition) passed definitions ∧
        (change.apply (built whitespace changes)).2 =
          (built whitespace changes).extend definitions) ∧
    (∀ text : String, DigitsBounded text.toList →
      (∃ found, (built whitespace changes).First text found ∧
        (built whitespace changes).resolve text = .ok found ∧
        (built whitespace changes).find? text = .ok (some found)) ∨
      (built whitespace changes).Misses text ∧
        (built whitespace changes).resolve text = .error (.noMatch text) ∧
        (built whitespace changes).find? text = .ok none) ∧
    ∀ (text : String) (found : StepMatch) (further : List Change),
      (built whitespace changes).resolve text = .ok found → .clear ∉ further →
        (built whitespace (changes ++ further)).resolve text = .ok found := by
  refine ⟨built_definitions whitespace changes, fun change fault failed => ?_, fun text bounded => ?_,
    fun text found further matched kept => ?_⟩
  · have policy : (built whitespace changes).whitespace = policyAfter whitespace changes :=
      after_policy changes _
    have kept : change ≠ .clear := by
      rintro rfl
      cases failed
    rw [Change.apply_eq kept, policy] at failed ⊢
    obtain ⟨passed, request, rest, same, fails, each⟩ := made_of_error failed
    refine ⟨passed, request, rest, _, same, fails, each, ?_⟩
    cases change with
    | setPolicy => cases failed
    | clear => exact absurd rfl kept
    | _ => rw [extend, policy]; rfl
  · rcases (built_compiled whitespace changes).knows_or_misses bounded with ⟨found, first⟩ | misses
    · exact .inl ⟨found, first, resolve_eq_ok.2 first, find?_eq_some.2 first⟩
    · exact .inr ⟨misses, resolve_of_misses misses, find?_eq_none.2 misses⟩
  · have grown := after_definitions kept (built whitespace changes)
    rw [built, ← after_append] at grown
    exact resolve_eq_ok.2 ((resolve_eq_ok.1 matched).grow grown)

def idleCallable : Callable :=
  .script "idle" ⟨[], 0, true, []⟩ false false 0 []

/-- A policy under which no text compiles, a registration that fails under it, and then a module
whose second mark fails. -/
def failingChanges : List Change :=
  [.clear, .setPolicy .null, .register idleCallable ⟨"given", .text "I rest", ""⟩,
    .setPolicy (.text "strict"), .registerModule [⟨"idle", idleCallable,
      [⟨"Given", .text "I have \x7bint\x7d wings", ""⟩, ⟨"when", .text "I \x7bnod\x7d", ""⟩,
        ⟨"then", .text "I rest", ""⟩]⟩]]

theorem registry_of_history_failing :
    (∃ found, found.index = 0 ∧ (built .null failingChanges).First "I have 2 wings" found ∧
      (built .null (failingChanges ++ [.register idleCallable ⟨"given", .text "I have 2 wings", ""⟩])).resolve
        "I have 2 wings" = .ok found) ∧
    (built .null failingChanges).resolve "I rest" = .error (.noMatch "I rest") ∧
    ∃ request fault, define (.text "strict") request = .error fault ∧
      ((Change.register idleCallable ⟨"given", .text "\x7b\x7d", ""⟩).apply
        (built .null failingChanges)).2 = built .null failingChanges := by
  have bounded {text : String} (short : text.toList.length ≤ digitBound) : DigitsBounded text.toList :=
    fun run inside _ => Nat.le_trans inside.length_le short
  obtain ⟨-, failing, readers, stable⟩ := registry_of_history .null failingChanges
  refine ⟨?_, ?_, ?_⟩
  · rcases readers "I have 2 wings" (bounded (by decide)) with ⟨found, first, resolved, -⟩ | ⟨-, missed, -⟩
    · have place : ((built .null failingChanges).resolve "I have 2 wings").toOption.map (·.index) =
          some 0 := by decide +kernel
      rw [resolved] at place
      exact ⟨found, Option.some.inj place, first, stable _ found _ resolved (by simp)⟩
    · have known : ((built .null failingChanges).resolve "I have 2 wings").isOk := by decide +kernel
      rw [missed] at known
      cases known
  · rcases readers "I rest" (bounded (by decide)) with ⟨found, -, resolved, -⟩ | ⟨-, missed, -⟩
    · have unknown : ((built .null failingChanges).resolve "I rest").isOk = false := by decide +kernel
      rw [resolved] at unknown
      cases unknown
    · exact missed
  · cases failed : ((Change.register idleCallable ⟨"given", .text "\x7b\x7d", ""⟩).apply
        (built .null failingChanges)).1 with
    | ok =>
      have unwell : ((Change.register idleCallable ⟨"given", .text "\x7b\x7d", ""⟩).apply
        (built .null failingChanges)).1.isOk = false := by decide +kernel
      rw [failed] at unwell
      cases unwell
    | error fault =>
      obtain ⟨passed, request, rest, definitions, same, fails, each, left⟩ := failing _ _ failed
      cases passed with
      | nil =>
        cases each
        exact ⟨request, fault, fails, left.trans (extend_nil _)⟩
      | cons first passed => simp [Change.requests] at same

end FeatureRunner.Registry
