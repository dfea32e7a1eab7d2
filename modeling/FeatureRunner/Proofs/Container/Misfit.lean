import FeatureRunner.Proofs.Container.ClassPath
import FeatureRunner.Proofs.Container.Update

/-!
Helpers that a configuration describes by values of the wrong type. What is wrong with a class path is a fault
of the configuration; but a class path that is no text, one that begins with a point, something that is no
class, and options that a class does not take are faults of types or of members.

Main statements: `Container.Misfit.create`, `Container.create_error`.
-/

namespace FeatureRunner

/-- The faults over a value whose type does not allow what is done with it. -/
def Fault.isMistyped (fault : Fault) : Bool :=
  fault.kind == .type || fault.kind == .member

namespace Container
open Value

/-- What the options of a helper name as its class. -/
def classOf (options : List (Value × Value)) : Value :=
  (field? options "class").getD .null

/-- Options that no helper can be built from, for the type of something. -/
inductive Misdescribed (modules : List HelperModule) (options : List (Value × Value)) (fault : Fault) : Prop
  | unread (counts : (classOf options).truthy = true) (fails : classPath (classOf options) = .error fault)
  | relative {path : String} (named : classOf options = .text path) (relative : Relative path)
      (fails : findMember modules path = .error fault)
  | refused {path : String} {member : ModuleMember} (named : classOf options = .text path)
      (found : findMember modules path = .ok member) (fails : initial.construct options member = .error fault)

section Building

variable {container other : Container} {modules : List HelperModule} {name entry : Value}
  {options : List (Value × Value)} {path : String} {member : ModuleMember} {fault : Fault}

theorem classPath_mistyped {value : Value} (fails : classPath value = .error fault) :
    fault.isMistyped = true := by
  cases value <;> cases fails <;> rfl

theorem keptOptions_mistyped {helperClass : HelperClass} (fails : keptOptions helperClass options = .error fault) :
    fault.isMistyped = true := by
  cases helperClass with
  | echo =>
    dsimp only [keptOptions] at fails
    split at fails <;> cases fails
    rfl
  | counter =>
    dsimp only [keptOptions] at fails
    split at fails <;> cases fails
    rfl
  | strict =>
    dsimp only [keptOptions] at fails
    split at fails
    · cases fails
      rfl
    · split at fails <;> cases fails
      rfl

/-- Something that is no class cannot be called, and a class takes texts as keywords and only some of them.
What there is in the container does not matter. -/
theorem construct_error (fails : container.construct options member = .error fault) :
    fault.isMistyped = true ∧ ∀ other : Container, other.construct options member = .error fault := by
  cases member with
  | plain typeName =>
    cases fails
    exact ⟨rfl, fun _ => rfl⟩
  | helperClass helperClass =>
    dsimp only [construct, instantiate] at fails ⊢
    split at fails
    · next wrong =>
      cases fails
      exact ⟨rfl, fun _ => if_pos wrong⟩
    · next texts =>
      cases kept : keptOptions helperClass (remove (.text "class") options) with
      | ok options => rw [kept] at fails; cases fails
      | error raised =>
        rw [kept] at fails
        cases fails
        exact ⟨keptOptions_mistyped kept, fun _ => if_neg texts⟩

theorem unresolved_of_error (fails : findMember modules path = .error fault) :
    Unresolved modules path fault := by
  rcases findMember_cases modules path with ⟨member, -, found⟩ | ⟨raised, unresolved, found⟩
  · cases fails.symm.trans found
  · cases fails.symm.trans found
    exact unresolved

theorem Misdescribed.mistyped (misdescribed : Misdescribed modules options fault) : fault.isMistyped = true := by
  cases misdescribed with
  | unread counts fails => exact classPath_mistyped fails
  | relative named relative fails =>
    simp [Fault.isMistyped, (unresolved_of_error fails).relative relative]
  | refused named found fails => exact (construct_error fails).1

theorem build_options (container : Container) (modules : List HelperModule) (name : Value)
    (options : List (Value × Value)) : container.build modules name (.dict options) =
      if (classOf options).truthy then
        classPath (classOf options) >>= fun path => findMember modules path >>= container.construct options
      else .error (.helperWithoutClass name.display) := by
  unfold build
  dsimp only
  rw [← classOf]
  cases (classOf options).truthy with
  | false => rfl
  | true =>
    refine bind_congr fun path => bind_congr fun member => ?_
    cases member <;> rfl

theorem findMember_empty (modules : List HelperModule) : findMember modules "" = .error (.helperClassPath "") :=
  rfl

theorem relative_ne_empty (relative : Relative path) : path ≠ "" := by
  rintro rfl
  cases (unresolved_of_error (findMember_empty [])).relative relative

theorem text_truthy (full : path ≠ "") : (Value.text path).truthy = true := by
  simpa [Value.truthy] using full

theorem Misdescribed.build (misdescribed : Misdescribed modules options fault) (container : Container)
    (name : Value) : container.build modules name (.dict options) = .error fault := by
  rw [build_options]
  cases misdescribed with
  | unread counts fails =>
    rw [if_pos counts, fails]
    rfl
  | relative named relative fails =>
    rw [named, if_pos (text_truthy (relative_ne_empty relative))]
    show (findMember modules _ >>= _) = _
    rw [fails]
    rfl
  | @refused path member named found fails =>
    have full : path ≠ "" := by
      rintro rfl
      cases found
    rw [named, if_pos (text_truthy full)]
    show (findMember modules _ >>= _) = _
    rw [found]
    exact (construct_error fails).2 container

/-- A helper that cannot be built is misdescribed, or there is a fault of the configuration. -/
theorem build_error (fails : container.build modules name entry = .error fault) :
    (∃ options, entry = .dict options ∧ Misdescribed modules options fault) ∨
      fault.kind = .configuration ∧ ∀ other : Container, other.build modules name entry = .error fault := by
  cases entry with
  | dict options =>
    simp only [build_options] at fails ⊢
    split at fails
    · next counts =>
      cases named : classPath (classOf options) with
      | error raised =>
        rw [named] at fails
        cases fails
        exact .inl ⟨options, rfl, .unread counts named⟩
      | ok path =>
        have given : classOf options = .text path := by
          cases shape : classOf options <;> rw [shape] at named <;> cases named
          rfl
        rw [named] at fails
        change (findMember modules path >>= _) = _ at fails
        cases found : findMember modules path with
        | ok member =>
          rw [found] at fails
          exact .inl ⟨options, rfl, .refused given found ((construct_error fails).2 _)⟩
        | error raised =>
          rw [found] at fails
          cases fails
          -- Only a point in front of the path is not taken for a fault of the configuration.
          by_cases relative : Relative path
          · exact .inl ⟨options, rfl, .relative given relative found⟩
          · refine .inr ⟨(unresolved_of_error found).absolute relative, fun other => ?_⟩
            rw [if_pos counts]
            show (findMember modules path >>= _) = _
            rw [found]
            rfl
    · next uncounted =>
      cases fails
      exact .inr ⟨rfl, fun _ => if_neg uncounted⟩
  | _ => cases fails

theorem build_error_congr (fails : container.build modules name entry = .error fault) (other : Container) :
    other.build modules name entry = .error fault := by
  rcases build_error fails with ⟨options, rfl, misdescribed⟩ | ⟨-, anywhere⟩
  · exact misdescribed.build other name
  · exact anywhere other

end Building

/-! ## Sections -/

/-- The helper that an entry describes can be built. -/
def Builds (modules : List HelperModule) (entry : Value × Value) : Prop :=
  ∀ fault, initial.build modules entry.1 entry.2 ≠ .error fault

/-- A value that cannot be used as the helpers of a configuration: it is no mapping, or its first helper that
cannot be built is misdescribed. -/
inductive Misfit (modules : List HelperModule) : Value → Fault → Prop
  | unlisted {value : Value} (counts : value.truthy = true) (wrong : ∀ entries, value ≠ .dict entries) :
      Misfit modules value (.missingMember value.typeName "items")
  | helper {passed rest options : List (Value × Value)} {name : Value} {fault : Fault}
      (built : ∀ earlier ∈ passed, Builds modules earlier) (misdescribed : Misdescribed modules options fault) :
      Misfit modules (.dict (passed ++ (name, .dict options) :: rest)) fault

section Sections

variable {container next : Container} {modules : List HelperModule} {name value : Value}
  {options entries passed rest : List (Value × Value)} {fault : Fault}

theorem builds_of_addHelpers (adds : addHelpers modules passed container = (.ok (), next)) :
    ∀ earlier ∈ passed, Builds modules earlier := by
  induction passed generalizing container with
  | nil => simp
  | cons first passed ih =>
    obtain ⟨name, entry⟩ := first
    unfold addHelpers at adds
    split at adds
    · next helper reached builds =>
      refine List.forall_mem_cons.2 ⟨fun fault fails => ?_, ih adds⟩
      cases builds.symm.trans (build_error_congr fails container)
    · cases adds

theorem addHelpers_misdescribed (built : ∀ earlier ∈ passed, Builds modules earlier)
    (misdescribed : Misdescribed modules options fault) (container : Container) :
    ∃ next, addHelpers modules (passed ++ (name, .dict options) :: rest) container = (.error fault, next) := by
  induction passed generalizing container with
  | nil =>
    refine ⟨container, ?_⟩
    rw [List.nil_append, addHelpers, misdescribed.build]
  | cons first passed ih =>
    obtain ⟨here, later⟩ := List.forall_mem_cons.1 built
    obtain ⟨name', entry⟩ := first
    rw [List.cons_append, addHelpers]
    cases builds : container.build modules name' entry with
    | ok answer => exact ih later _
    | error raised => exact absurd (build_error_congr builds _) (here raised)

/-- A section of helpers. -/
def sectionOf (value : Value) : Except Fault (List (Value × Value)) :=
  Container.section? (.record [("helpers", value)]) "helpers"

theorem sectionOf_dict (entries : List (Value × Value)) : sectionOf (.dict entries) = .ok entries := by
  cases entries <;> rfl

theorem sectionOf_eq (value : Value) : sectionOf value =
    if value.truthy then
      match value with
      | .dict entries => .ok entries
      | found => .error (.missingMember found.typeName "items")
    else .ok [] := by
  show (if !value.truthy then _ else _) = _
  cases value.truthy <;> rfl

theorem sectionOf_wrong (counts : value.truthy = true) (wrong : ∀ entries, value ≠ .dict entries) :
    sectionOf value = .error (.missingMember value.typeName "items") := by
  rw [sectionOf_eq, if_pos counts]
  cases value with
  | dict entries => exact absurd rfl (wrong entries)
  | _ => rfl

/-- Creating the contents of a container from a section of helpers is adding them to the empty one. -/
theorem create_section (container : Container) (modules : List HelperModule) (value : Value) :
    container.create modules (.record [("helpers", value)]) =
      match sectionOf value with
      | .error fault => (.error fault, container.clear)
      | .ok entries => addHelpers modules entries container.clear := by
  have full : (Value.record [("helpers", value)]).truthy = true := by simp [Value.record, Value.truthy]
  have bare : section? (.record [("helpers", value)]) "support" = .ok [] := rfl
  rw [create, append, if_pos full, bare, ← sectionOf]
  cases sectionOf value with
  | error fault => rfl
  | ok entries =>
    dsimp only
    cases addHelpers modules entries container.clear with
    | mk answer next => cases answer <;> rfl

theorem Misfit.mistyped (misfit : Misfit modules value fault) : fault.isMistyped = true := by
  cases misfit with
  | unlisted counts wrong => rfl
  | helper built misdescribed => exact misdescribed.mistyped

theorem Misfit.create (misfit : Misfit modules value fault) (container : Container) :
    ∃ next, container.create modules (.record [("helpers", value)]) = (.error fault, next) := by
  rw [create_section]
  cases misfit with
  | unlisted counts wrong =>
    rw [sectionOf_wrong counts wrong]
    exact ⟨_, rfl⟩
  | helper built misdescribed =>
    rw [sectionOf_dict]
    exact addHelpers_misdescribed built misdescribed _

theorem addHelpers_fault (fails : addHelpers modules entries container = (.error fault, next)) :
    Misfit modules (.dict entries) fault ∨ fault.kind = .configuration := by
  obtain ⟨passed, name, entry, rest, rfl, adds, fails⟩ := addHelpers_error fails
  rcases build_error fails with ⟨options, rfl, misdescribed⟩ | ⟨kind, -⟩
  · exact .inl (.helper (builds_of_addHelpers adds) misdescribed)
  · exact .inr kind

/-- Helpers that cannot be created are a misfit, or there is a fault of the configuration. -/
theorem create_error (fails : container.create modules (.record [("helpers", value)]) = (.error fault, next)) :
    Misfit modules value fault ∨ fault.kind = .configuration := by
  rw [create_section] at fails
  by_cases mapping : ∃ entries, value = .dict entries
  · obtain ⟨entries, rfl⟩ := mapping
    rw [sectionOf_dict] at fails
    exact addHelpers_fault fails
  · have wrong := not_exists.1 mapping
    cases counts : value.truthy with
    | true =>
      rw [sectionOf_wrong counts wrong] at fails
      cases fails
      exact .inl (.unlisted counts wrong)
    | false =>
      rw [sectionOf_eq, counts] at fails
      cases fails

end Sections

end Container

end FeatureRunner
