import FeatureRunner.Proofs.World.Run

/-!
What a task waits for. A task that has not ended is being run or has its place in the queue, unless
it waits for a task that has not ended either, or for a gate. So none is forgotten.
-/

namespace FeatureRunner

namespace World

/-- A task is being run, or has its place in the queue. -/
def Queued (world : World) (number : Nat) : Prop :=
  world.busy = some number ∨ number ∈ world.resumptions ∨ number ∈ world.fulfilments

instance (world : World) : DecidablePred world.Queued := fun _ =>
  inferInstanceAs (Decidable (_ ∨ _ ∨ _))

/-- Nothing is left to do, and no task waits for a gate. -/
structure Still (world : World) : Prop where
  idle : world.current = none
  ready : world.ready = []
  soon : world.soon = []
  ungated : ∀ number gate rest, world.state? number ≠ some (.waiting gate rest)

variable {world : World} {number : Nat} {process : Process}

theorem Still.not_queued (still : world.Still) : ¬world.Queued number := by
  simp [Queued, busy, resumptions, fulfilments, still.idle, still.ready, still.soon]

/-- A task waits for another that has not ended. -/
def Pends (world : World) (process : Process) (task : Nat) : Prop :=
  (process.act? = some (.join task) ∨ process.act? = some (.await task)) ∧
    world.outcome? task = none ∧ task < world.tasks.length

theorem queued_or_waits (wired : world.Wired world.busy)
    (left : world.process? (.task number) = some process)
    (unsettled : world.outcome? number = none) :
    world.Queued number ∨ (∃ task, world.Pends process task) ∨
      ∃ gate rest, world.state? number = some (.waiting gate rest) ∧ process = .wait gate rest := by
  by_cases active : world.busy = some number
  · exact .inl (.inl active)
  obtain ⟨state, known⟩ := Option.isSome_iff_exists.1 (state?_isSome.2 (process?_lt wired left))
  obtain rfl := Option.some.inj (left.symm.trans (process?_of_state active known))
  cases state with
  | scheduled rest =>
    rcases wired.scheduled number rest known with free | queued
    · exact absurd free active
    · exact .inl (.inr (.inl queued))
  | awaiting task next =>
    rcases wired.awaits number task next known with free | watching
    · exact absurd free active
    · refine .inr (.inl ⟨task, .inr rfl, (wired.awaited task number watching).2, ?_⟩)
      by_contra beyond
      simp [awaiters_eq_nil (Nat.le_of_not_lt beyond)] at watching
  | joining task rest =>
    rcases wired.joins number task rest known with free | queued | watching
    · exact absurd free active
    · exact .inl (.inr (.inr queued))
    · refine .inr (.inl ⟨task, .inl rfl, (wired.joined task number watching).2, ?_⟩)
      by_contra beyond
      simp [joiners_eq_nil (Nat.le_of_not_lt beyond)] at watching
  | waiting gate rest => exact .inr (.inr ⟨gate, rest, known, rfl⟩)
  | done outcome =>
    rw [outcome?_eq_some.2 known] at unsettled
    cases unsettled

/-- Where nothing is left to do, a task that has not ended waits for another. -/
theorem Still.pends (still : world.Still) (wired : world.Wired world.busy)
    (left : world.process? (.task number) = some process)
    (unsettled : world.outcome? number = none) : ∃ task, world.Pends process task := by
  rcases queued_or_waits wired left unsettled with queued | pends | ⟨gate, rest, waits, _⟩
  · exact absurd queued still.not_queued
  · exact pends
  · exact absurd waits (still.ungated number gate rest)

end World

end FeatureRunner
