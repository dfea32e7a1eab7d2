import FeatureRunner.Proofs.Container.History

/-!
Updates of a container that fail. An update inserts the helpers of its configuration one after the other
and stops at the first that cannot be built. What it has done until then stays: a container that is created
anew has been emptied, and the helpers before the failing one are held. Support objects are only touched
when all helpers are there.

Main statement: `Container.failed_update_keeps`.
-/

namespace FeatureRunner.Container
open Value

/-- The container that a call goes on from. -/
def Call.start : Call → Container → Container
  | .create .., container => container.clear
  | .append .., container => container
  | .clear, container => container.clear

/-- The modules that class paths name and the configuration that a call reads. -/
def Call.reads : Call → List HelperModule × Value
  | .create modules config => (modules, if config.truthy then config else .dict [])
  | .append modules config => (modules, config)
  | .clear => ([], .dict [])

/-- A container to which the helpers that some entries describe have been added, and nothing else. -/
structure Added (modules : List HelperModule) (start : Container) (entries : List (Value × Value))
    (reached : Container) : Prop where
  helpers : ∃ objects, Describes modules start.totals.length entries objects reached.totals.length ∧
    reached.helpers = insertAll objects start.helpers
  support : reached.support = start.support

/-- How an update ends early: before the first entry, at an entry that cannot be built, or behind the
last at the support objects. -/
inductive Stops (modules : List HelperModule) (config : Value) (start : Container) :
    Fault → Container → Prop
  | unlisted {fault : Fault} (unlisted : section? config "helpers" = .error fault) :
      Stops modules config start fault start
  | unbuilt {fault : Fault} {reached : Container} {passed rest : List (Value × Value)}
      {name entry : Value}
      (lists : section? config "helpers" = .ok (passed ++ (name, entry) :: rest))
      (added : Added modules start passed reached)
      (fails : reached.build modules name entry = .error fault) :
      Stops modules config start fault reached
  | unsupported {fault : Fault} {reached : Container} {entries : List (Value × Value)}
      (lists : section? config "helpers" = .ok entries)
      (added : Added modules start entries reached)
      (unlisted : section? config "support" = .error fault) :
      Stops modules config start fault reached

section Updates

variable {container next : Container} {modules : List HelperModule} {name entry helper : Value}
  {entries : List (Value × Value)} {config : Value} {fault : Fault}

theorem build_support (builds : container.build modules name entry = .ok (helper, next)) :
    next.support = container.support := by
  rcases build_cases builds with ⟨-, -, rfl⟩ | ⟨_, _, _, _, _, -, -, -, -, -, rfl⟩ <;> rfl

theorem addHelpers_support (adds : addHelpers modules entries container = (.ok (), next)) :
    next.support = container.support := by
  induction entries generalizing container with
  | nil =>
    cases adds
    rfl
  | cons first entries ih =>
    obtain ⟨name, entry⟩ := first
    unfold addHelpers at adds
    split at adds
    · next helper built builds =>
      have kept := build_support builds
      exact (ih adds).trans kept
    · cases adds

theorem added_of_addHelpers (adds : addHelpers modules entries container = (.ok (), next)) :
    Added modules container entries next :=
  ⟨addHelpers_cases adds, addHelpers_support adds⟩

/-- Adding helpers stops at the first that cannot be built, with those before it added. -/
theorem addHelpers_error (fails : addHelpers modules entries container = (.error fault, next)) :
    ∃ passed name entry rest, entries = passed ++ (name, entry) :: rest ∧
      addHelpers modules passed container = (.ok (), next) ∧
      next.build modules name entry = .error fault := by
  induction entries generalizing container with
  | nil => cases fails
  | cons first entries ih =>
    obtain ⟨name, entry⟩ := first
    unfold addHelpers at fails
    split at fails
    · next helper built builds =>
      obtain ⟨passed, name', entry', rest, rfl, adds, fails⟩ := ih fails
      refine ⟨(name, entry) :: passed, name', entry', rest, rfl, ?_, fails⟩
      rw [addHelpers, builds]
      exact adds
    · next unbuilt =>
      cases fails
      exact ⟨[], name, entry, entries, rfl, rfl, unbuilt⟩

theorem append_error (fails : container.append modules config = (.error fault, next)) :
    Stops modules config container fault next := by
  unfold append at fails
  split at fails
  · next unlisted =>
    cases fails
    exact .unlisted unlisted
  · next entries lists =>
    split at fails
    · next adds =>
      cases fails
      obtain ⟨passed, name, entry, rest, rfl, adds, fails⟩ := addHelpers_error adds
      exact .unbuilt lists (added_of_addHelpers adds) fails
    · next adds =>
      split at fails
      · next unlisted =>
        cases fails
        exact .unsupported lists (added_of_addHelpers adds) unlisted
      · cases fails

/-- An update that fails leaves what it has done until then: it goes on from the container, or if it
creates the contents anew from the empty one, and has added the helpers of exactly the entries before the one
that fails; the support objects are those that it went on from. -/
theorem failed_update_keeps {container after : Container} {call : Call} {fault : Fault}
    (fails : container.perform call = (.error fault, after)) :
    Stops call.reads.1 call.reads.2 (call.start container) fault after := by
  cases call with
  | create modules config => exact append_error fails
  | append modules config => exact append_error fails
  | clear => cases fails

end Updates

/-- A configuration whose second helper names no class. -/
def halfConfig : Value :=
  .record [("helpers", .record [("first", .int 1), ("broken", .record [("timeout", .int 5)])])]

def oldContainer : Container :=
  ⟨[(.text "old", .int 7)], [(.text "user", .text "admin")], []⟩

theorem create_half : oldContainer.perform (.create [] halfConfig) =
    (.error (.helperWithoutClass "broken"), ⟨[(.text "first", .int 1)], [], []⟩) := by
  rfl

theorem append_half : oldContainer.perform (.append [] halfConfig) =
    (.error (.helperWithoutClass "broken"),
      ⟨[(.text "old", .int 7), (.text "first", .int 1)], [(.text "user", .text "admin")], []⟩) := by
  rfl

theorem failed_update_keeps_half :
    oldContainer.perform (.append [] halfConfig) = (.error (.helperWithoutClass "broken"),
      ⟨[(.text "old", .int 7), (.text "first", .int 1)], [(.text "user", .text "admin")], []⟩) ∧
    Stops [] halfConfig oldContainer (.helperWithoutClass "broken")
      ⟨[(.text "old", .int 7), (.text "first", .int 1)], [(.text "user", .text "admin")], []⟩ :=
  ⟨append_half, failed_update_keeps append_half⟩

/-- An update that fails at its second helper holds the first, and one that creates the contents anew has
dropped all that there was. -/
theorem half_update_changes : ¬ ∀ (container after : Container) (call : Call) (fault : Fault),
    container.perform call = (.error fault, after) →
      after.helpers = container.helpers ∧ after.support = container.support := by
  intro unchanged
  have dropped := (unchanged _ _ _ _ create_half).2
  cases dropped

end FeatureRunner.Container
