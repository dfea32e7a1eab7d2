import FeatureRunner.Proofs.Registry.Arguments
import FeatureRunner.World.Loop

/-!
A match that is called with one list or tuple, beside the call with each of the items. They are the
same call but for two kinds of sequences: the empty one, whose items are a call without arguments, and
one that holds nothing but another list or tuple, which is unpacked itself when it is the only argument.

Main statement: `StepMatch.unpacks_iff`.
-/

namespace FeatureRunner

namespace Value

theorem list_not_mem (items : List Value) : .list items ∉ items := by
  intro member
  have smaller := List.sizeOf_lt_of_mem member
  simp at smaller

theorem tuple_not_mem (items : List Value) : .tuple items ∉ items := by
  intro member
  have smaller := List.sizeOf_lt_of_mem member
  simp at smaller

end Value

namespace Callable

variable {callable : Callable}

theorem fitArguments_placeless (placeless : callable.positionalBound = some 0) (args : List Value) :
    callable.fitArguments args = [] := by
  unfold fitArguments
  rw [placeless]
  rfl

/-- A callable with a place gets its first argument. -/
theorem fitArguments_cons (placed : callable.positionalBound ≠ some 0) (first : Value)
    (rest : List Value) : ∃ others, callable.fitArguments (first :: rest) = first :: others := by
  unfold fitArguments
  cases bound : callable.positionalBound with
  | none => exact ⟨rest, rfl⟩
  | some count =>
    cases count with
    | zero => exact absurd bound placed
    | succ count => exact ⟨rest.take count, rfl⟩

theorem fitArguments_nil : callable.fitArguments [] = [] := by
  unfold fitArguments
  cases callable.positionalBound <;> simp

theorem eq_nil_of_fitArguments (placed : callable.positionalBound ≠ some 0) {args : List Value}
    (none : callable.fitArguments args = []) : args = [] := by
  cases args with
  | nil => rfl
  | cons first rest =>
    obtain ⟨others, given⟩ := fitArguments_cons placed first rest
    rw [given] at none
    cases none

theorem fitArguments_subset (args : List Value) : callable.fitArguments args ⊆ args := by
  unfold fitArguments
  cases callable.positionalBound with
  | none => exact List.Subset.refl args
  | some count => exact List.take_subset count args

/-- A value that is not among some items does not reach the body in their place. -/
theorem fitArguments_ne (placed : callable.positionalBound ≠ some 0) {value : Value}
    {items : List Value} (apart : value ∉ items) :
    callable.fitArguments [value] ≠ callable.fitArguments items := by
  intro same
  obtain ⟨others, first⟩ := fitArguments_cons placed value []
  have member : value ∈ callable.fitArguments items := by
    rw [← same, first]
    exact List.mem_cons_self
  exact apart (fitArguments_subset items member)

end Callable

namespace StepMatch

variable (found : StepMatch)

/-- The arguments that a call hands on to the body. -/
def handed (args : List Value) : List Value :=
  found.definition.callable.fitArguments (found.arguments args)

/-- A call with some items as one list or tuple is the call with each of them: the body gets the same
arguments, and what comes of the call is the same. -/
def Unpacks (items : List Value) : Prop :=
  ∀ sequence, sequence = .list items ∨ sequence = .tuple items →
    found.handed [sequence] = found.handed items ∧ found.call [sequence] = found.call items ∧
      found.begin [sequence] = found.begin items

variable {found}

theorem call_congr {args args' : List Value} (same : found.handed args = found.handed args') :
    found.call args = found.call args' :=
  congrArg (Program.call .step found.definition.callable) same

theorem begin_congr {args args' : List Value} (same : found.handed args = found.handed args') :
    found.begin args = found.begin args' := by
  cases suspends : found.definition.callable.suspends with
  | true =>
    rw [begin_of_suspends suspends, begin_of_suspends suspends]
    unfold handed at same
    rw [same]
  | false =>
    have direct (args : List Value) : found.begin args = found.call args := by
      unfold begin
      split
      · next callable =>
        rw [callable] at suspends
        cases suspends
      · rfl
    rw [direct, direct, call_congr same]

theorem unpacks_of_handed {items : List Value}
    (same : found.definition.callable.fitArguments items = found.handed items) : found.Unpacks items := by
  rintro sequence (rfl | rfl)
  all_goals exact ⟨same, call_congr same, begin_congr same⟩

theorem Unpacks.handed {items : List Value} (unpacks : found.Unpacks items) :
    found.definition.callable.fitArguments items = found.handed items :=
  (unpacks (.list items) (.inl rfl)).1

/-- A call with one list or tuple is the call with its items exactly if the body has no place for
arguments, or if the sequence is neither empty, while the match has parameters, nor made of a single
list or tuple. -/
theorem unpacks_iff (found : StepMatch) (items : List Value) : found.Unpacks items ↔
    found.definition.callable.positionalBound = some 0 ∨
      (items = [] → found.params = []) ∧ ∀ item, items = [item] → item.Flat := by
  constructor
  · intro unpacks
    refine or_iff_not_imp_left.2 fun placed => ⟨?_, ?_⟩
    · rintro rfl
      have none := unpacks.handed
      rw [Callable.fitArguments_nil] at none
      exact Callable.eq_nil_of_fitArguments placed none.symm
    · rintro item rfl inner
      refine ⟨?_, ?_⟩
      · rintro rfl
        exact Callable.fitArguments_ne placed (Value.list_not_mem inner) unpacks.handed
      · rintro rfl
        exact Callable.fitArguments_ne placed (Value.tuple_not_mem inner) unpacks.handed
  · rintro (placeless | ⟨unlike, single⟩)
    · apply unpacks_of_handed
      rw [handed, Callable.fitArguments_placeless placeless, Callable.fitArguments_placeless placeless]
    · apply unpacks_of_handed
      rw [handed, arguments_eq_self unlike single]

/-- A body that answers with all its arguments. -/
def answeringBody : Callable :=
  .script "answer" ⟨[], 0, true, []⟩ false false 0 [.give .arguments]

/-- A match of a step with one word. -/
def wordMatch : StepMatch where
  index := 0
  definition := ⟨"given", .placeholders ⟨"\x7bword\x7d", .tolerant, [.placeholder ⟨.word, false⟩]⟩,
    answeringBody, ""⟩
  params := [.text "fish"]

/-- The texts that a program answers at once in a fresh world, if it answers with a list of texts. -/
def textsAnswered (program : Program Value) : Option (List String) :=
  match ((World.initial ⟨0, none⟩).perform program id).1 with
  | .ok (.list items) => items.mapM fun item =>
    match item with
    | .text value => some value
    | _ => none
  | _ => none

/-- The items of an empty list are a call without arguments, which hands the parameters on. -/
theorem empty_not_unpacked : textsAnswered (wordMatch.call [.list []]) = some [] ∧
    textsAnswered (wordMatch.call []) = some ["fish"] ∧ ¬ wordMatch.Unpacks [] := by
  have empty : textsAnswered (wordMatch.call [.list []]) = some [] := by decide +kernel
  have all : textsAnswered (wordMatch.call []) = some ["fish"] := by decide +kernel
  refine ⟨empty, all, fun unpacks => ?_⟩
  have same := (unpacks (.list []) (.inl rfl)).2.1
  rw [same, all] at empty
  cases empty

end StepMatch

end FeatureRunner
