import FeatureRunner.Proofs.Pattern.Division
import FeatureRunner.Proofs.Recorder.Trace

/-!
Containers over whole histories of calls. What a container holds is what its calls have inserted
since it was last emptied: every name stands in the place of its first insertion, with the object
that was inserted last.

Main statement: `Container.Reached.inserted`.
-/

namespace FeatureRunner

/-! ## Insertions in order -/

namespace Value

/-- What is under a name after some insertions, given what was there. -/
def latest (name object : Value) (later : List (Value × Value)) : Value :=
  ((later.filter fun entry => name.same entry.1).getLast?.map (·.2)).getD object

/-- The insertions under other names. -/
def others (name : Value) (entries : List (Value × Value)) : List (Value × Value) :=
  entries.filter fun entry => !name.same entry.1

/-- Insertions arranged by name: each name in the place of its first insertion, with the object of
its last. -/
def arranged : List (Value × Value) → List (Value × Value)
  | [] => []
  | (name, object) :: later => (name, latest name object later) :: arranged (others name later)
termination_by entries => entries.length
decreasing_by exact Nat.lt_succ_of_le (List.length_filter_le _ _)

def insertAll (entries known : List (Value × Value)) : List (Value × Value) :=
  entries.foldl (fun known entry => put entry.1 entry.2 known) known

/-- What is inserted under the first name stays in its place, and the rest is up to the others. -/
theorem insertAll_cons (name object : Value) (rest entries : List (Value × Value)) :
    insertAll entries ((name, object) :: rest) =
      (name, latest name object entries) :: insertAll (others name entries) rest := by
  induction entries generalizing object rest with
  | nil => rfl
  | cons entry entries ih =>
    change insertAll entries (put entry.1 entry.2 ((name, object) :: rest)) = _
    rw [put]
    cases known : name.same entry.1 with
    | true =>
      have last : latest name object (entry :: entries) = latest name entry.2 entries := by
        simp only [latest, List.filter_cons, known, if_true, List.getLast?_cons]
        cases (entries.filter fun entry => name.same entry.1).getLast? <;> rfl
      rw [if_pos rfl, ih, last]
      simp [others, known]
    | false =>
      have last : latest name object (entry :: entries) = latest name object entries := by
        simp [latest, known]
      rw [if_neg Bool.false_ne_true, ih, last]
      simp [others, known, insertAll]

theorem insertAll_nil (entries : List (Value × Value)) : insertAll entries [] = arranged entries := by
  induction entries using arranged.induct with
  | case1 => rw [arranged]; rfl
  | case2 name object later ih =>
    change insertAll later [(name, object)] = _
    rw [insertAll_cons, ih, arranged]

theorem insertAll_arranged (entries later : List (Value × Value)) :
    insertAll later (arranged entries) = arranged (entries ++ later) := by
  rw [← insertAll_nil, ← insertAll_nil]
  exact (List.foldl_append ..).symm

end Value

/-! ## Calls -/

namespace Container
open Value

/-- A call that changes what a container holds, with the modules that there are at the time. -/
inductive Call
  | create (modules : List HelperModule) (config : Value)
  | append (modules : List HelperModule) (config : Value)
  | clear

def perform (container : Container) : Call → Except Fault Unit × Container
  | .create modules config => container.create modules config
  | .append modules config => container.append modules config
  | .clear => (.ok (), container.clear)

/-- What a container has become by successful calls. Instances may have counted in between. -/
inductive Reached : List Call → Container → Prop
  | initial : Reached [] .initial
  | call {calls : List Call} {container next : Container} {call : Call}
      (reached : Reached calls container) (succeeds : container.perform call = (.ok (), next)) :
      Reached (calls ++ [call]) next
  | counts {calls : List Call} {container : Container} (reached : Reached calls container)
      (number : Nat) (total : Value) :
      Reached calls { container with totals := container.totals.set number total }

/-- The objects that entries describe, by name: an entry is the object itself, or it names a class and
the options of an instance. Instances are numbered in the order in which they are built. -/
inductive Describes (modules : List HelperModule) :
    Nat → List (Value × Value) → List (Value × Value) → Nat → Prop
  | nil {count : Nat} : Describes modules count [] [] count
  | ready {count last : Nat} {name helper : Value} {entries objects : List (Value × Value)}
      (plain : ∀ options, helper ≠ .dict options)
      (rest : Describes modules count entries objects last) :
      Describes modules count ((name, helper) :: entries) ((name, helper) :: objects) last
  | instance {count last : Nat} {name : Value} {path : String} {helperClass : HelperClass}
      {options kept entries objects : List (Value × Value)}
      (named : Value.field? options "class" = some (.text path))
      (found : findMember modules path = .ok (.helperClass helperClass))
      (keeps : keptOptions helperClass (Value.remove (.text "class") options) = .ok kept)
      (rest : Describes modules (count + 1) entries objects last) :
      Describes modules count ((name, .dict options) :: entries)
        ((name, .built helperClass kept count) :: objects) last

/-- What calls have inserted since the last that emptied the container, and how many instances they
have built. -/
inductive Inserted : List Call → List (Value × Value) → Nat → Prop
  | none : Inserted [] [] 0
  | create {calls : List Call} {earlier entries objects : List (Value × Value)} {count last : Nat}
      {modules : List HelperModule} {config : Value} (inserted : Inserted calls earlier count)
      (lists : section? (if config.truthy then config else .dict []) "helpers" = .ok entries)
      (describes : Describes modules count entries objects last) :
      Inserted (calls ++ [.create modules config]) objects last
  | append {calls : List Call} {earlier entries objects : List (Value × Value)} {count last : Nat}
      {modules : List HelperModule} {config : Value} (inserted : Inserted calls earlier count)
      (lists : section? config "helpers" = .ok entries)
      (describes : Describes modules count entries objects last) :
      Inserted (calls ++ [.append modules config]) (earlier ++ objects) last
  | clear {calls : List Call} {earlier : List (Value × Value)} {count : Nat}
      (inserted : Inserted calls earlier count) : Inserted (calls ++ [.clear]) [] count

section Building

variable {container next : Container} {modules : List HelperModule} {name entry helper : Value}
  {entries : List (Value × Value)} {config : Value}

theorem instantiate_cases {helperClass : HelperClass} {options : List (Value × Value)}
    (builds : container.instantiate helperClass options = .ok (helper, next)) :
    ∃ kept total, keptOptions helperClass options = .ok kept ∧
      helper = .built helperClass kept container.totals.length ∧
      next = { container with totals := container.totals ++ [total] } := by
  unfold instantiate at builds
  split at builds
  · cases builds
  · obtain ⟨kept, keeps, rfl, rfl⟩ := by simpa [bind_eq_ok] using builds
    exact ⟨kept, _, keeps, rfl, rfl⟩

theorem classPath_eq_ok {value : Value} {path : String} (divides : classPath value = .ok path) :
    value = .text path := by
  cases value <;> simp_all [classPath]

theorem build_cases (builds : container.build modules name entry = .ok (helper, next)) :
    ((∀ options, entry ≠ .dict options) ∧ helper = entry ∧ next = container) ∨
    ∃ options path helperClass kept total, entry = .dict options ∧
      Value.field? options "class" = some (.text path) ∧
      findMember modules path = .ok (.helperClass helperClass) ∧
      keptOptions helperClass (Value.remove (.text "class") options) = .ok kept ∧
      helper = .built helperClass kept container.totals.length ∧
      next = { container with totals := container.totals ++ [total] } := by
  cases entry with
  | dict options =>
    right
    unfold build at builds
    cases named : Value.field? options "class" with
    | none => simp [named, Value.truthy] at builds
    | some value =>
      simp only [named, Option.getD_some] at builds
      split at builds
      · cases builds
      · obtain ⟨path, divides, builds⟩ := bind_eq_ok.1 builds
        obtain ⟨member, found, builds⟩ := bind_eq_ok.1 builds
        obtain rfl := classPath_eq_ok divides
        cases member with
        | plain typeName => cases builds
        | helperClass helperClass =>
          obtain ⟨kept, total, keeps, rfl, rfl⟩ := instantiate_cases builds
          exact ⟨options, path, helperClass, kept, total, rfl, named, found, keeps, rfl, rfl⟩
  | _ =>
    cases builds
    exact .inl ⟨nofun, rfl, rfl⟩

theorem addHelpers_cases (adds : addHelpers modules entries container = (.ok (), next)) :
    ∃ objects, Describes modules container.totals.length entries objects next.totals.length ∧
      next.helpers = insertAll objects container.helpers := by
  induction entries generalizing container with
  | nil =>
    cases adds
    exact ⟨[], .nil, rfl⟩
  | cons first entries ih =>
    obtain ⟨name, entry⟩ := first
    unfold addHelpers at adds
    split at adds
    · rename_i helper built builds
      obtain ⟨objects, describes, helpers⟩ := ih adds
      rcases build_cases builds with
        ⟨plain, rfl, rfl⟩ | ⟨options, path, helperClass, kept, total, rfl, named, found, keeps, rfl, rfl⟩
      · exact ⟨_, .ready plain describes, helpers⟩
      · rw [List.length_append] at describes
        exact ⟨_, .instance named found keeps describes, helpers⟩
    · cases adds

theorem append_cases (appends : container.append modules config = (.ok (), next)) :
    ∃ entries objects, section? config "helpers" = .ok entries ∧
      Describes modules container.totals.length entries objects next.totals.length ∧
      next.helpers = insertAll objects container.helpers := by
  unfold append at appends
  split at appends
  · cases appends
  · rename_i entries lists
    split at appends
    · cases appends
    · rename_i added adds
      obtain ⟨objects, describes, helpers⟩ := addHelpers_cases adds
      split at appends
      · cases appends
      · cases appends
        exact ⟨entries, objects, lists, describes, helpers⟩

end Building

/-- What a container holds is what has been inserted since it was last emptied, in the order of the
first insertions of the names. -/
theorem Reached.inserted {calls : List Call} {container : Container}
    (reached : Reached calls container) : ∃ inserted,
      Inserted calls inserted container.totals.length ∧ container.helpers = arranged inserted := by
  induction reached with
  | initial => exact ⟨[], .none, by rw [arranged]; rfl⟩
  | @call calls container next call _ succeeds ih =>
    obtain ⟨earlier, inserted, held⟩ := ih
    cases call with
    | create modules config =>
      obtain ⟨entries, objects, lists, describes, helpers⟩ := append_cases succeeds
      exact ⟨objects, .create inserted lists describes, helpers.trans (insertAll_nil objects)⟩
    | append modules config =>
      obtain ⟨entries, objects, lists, describes, helpers⟩ := append_cases succeeds
      refine ⟨earlier ++ objects, .append inserted lists describes, ?_⟩
      rw [helpers, held, insertAll_arranged]
    | clear =>
      cases succeeds
      exact ⟨[], .clear inserted, by rw [arranged]; rfl⟩
  | counts _ number total ih =>
    obtain ⟨earlier, inserted, held⟩ := ih
    refine ⟨earlier, ?_, held⟩
    rwa [List.length_set]

end Container

/-! ## Runs -/

namespace World
open Container

variable {world next : World}

theorem Flows.container (flows : world.Flows next) : next.container = world.container := by
  change next.scene.container = world.scene.container
  rw [flows.scene]

theorem Stepped.container (stepped : world.Stepped next) :
    next.container = world.container ∨ ∃ number total,
      next.container = { world.container with totals := world.container.totals.set number total } := by
  cases stepped with
  | @asks owner request branch running =>
    change (world.respond request).2.container = _ ∨ ∃ number total, (world.respond request).2.container = _
    cases request with
    | count number amount =>
      simp only [respond, addToTotal]
      split
      · exact .inr ⟨number, _, rfl⟩
      · exact .inl rfl
    | recorder role call =>
      cases call with
      | recover =>
        left
        change world.recover.2.container = _
        rcases recover_cases world with ⟨_, ⟨same, _⟩ | ⟨same, _⟩⟩ | ⟨previous, _, _, _, same⟩ <;>
          rw [same]
        rfl
      | _ => exact .inl rfl
    | _ => exact .inl rfl
  | calls running => exact .inl rfl
  | leaves running => exact .inl rfl
  | @adds owner role name body branch running =>
    left
    change (world.addTask name body).2.container = _
    rcases addTask_cases world name body with ⟨_, same⟩ | ⟨_, same⟩ <;> rw [same]
    rfl
  | ends running flows => exact .inl flows.container
  | notices idle calm quiet => exact .inl calm.toFlows.container
  | passes waits calm => exact .inl calm.toFlows.container

/-- What may come from outside: processes that write nothing to the trace, and calls of the container
that succeed. -/
def providing (world next : World) : Prop :=
  quietly world next ∧ (next.container = world.container ∨
    ∃ call, world.container.perform call = (.ok (), next.container))

/-- Calls that succeed lead to the container that a run leads to, if they have led to the one that it
starts with. -/
theorem Reached.of_run {clock : Calendar.Moment} {before passed : History} {start : World}
    {calls : List Call} (earlier : Run quietly (World.initial clock) before start)
    (reached : Reached calls start.container) (run : Run providing start passed world) :
    ∃ later, Reached (calls ++ later) world.container := by
  induction run with
  | refl => exact ⟨[], by simpa using reached⟩
  | @step _ world next run moved ih =>
    obtain ⟨later, reached⟩ := ih
    have wired := (Serial.of_run (earlier.trans (run.mono fun _ _ comes => comes.1))).wired
    rcases (step?_stepped wired moved).container with same | ⟨number, total, same⟩
    · exact ⟨later, same ▸ reached⟩
    · exact ⟨later, same ▸ reached.counts number total⟩
  | @between _ world next run between ih =>
    obtain ⟨later, reached⟩ := ih
    rcases between.calm_or with calm | ⟨_, same | ⟨call, succeeds⟩⟩
    · exact ⟨later, calm.toFlows.container ▸ reached⟩
    · exact ⟨later, same ▸ reached⟩
    · exact ⟨later ++ [call], by simpa using Reached.call reached succeeds⟩

end World

end FeatureRunner
