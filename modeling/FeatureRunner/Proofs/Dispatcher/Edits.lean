import FeatureRunner.Proofs.Results.Books

/-!
Changes of the subscriptions. A collector that is attached and detached again leaves to every event
the listeners that the changes made by others meanwhile would have left without it, in their order.
-/

namespace FeatureRunner
open FeatureRunner.World

section Listeners

variable (dispatcher : Dispatcher) (event other : String) (listener : Listener)

theorem listeners_on : (dispatcher.on event listener).listeners other =
    if other = event then dispatcher.listeners event ++ [listener] else dispatcher.listeners other :=
  listeners_update event other (· ++ [listener]) dispatcher.subscriptions

theorem listeners_off : (dispatcher.off event listener).listeners other =
    if other = event then (dispatcher.listeners event).erase listener
    else dispatcher.listeners other :=
  listeners_update event other (·.erase listener) dispatcher.subscriptions

end Listeners

/-! ## Changes -/

/-- A change of the subscriptions. -/
inductive Edit
  | on (event : String) (listener : Listener)
  | off (event : String) (listener : Listener)
  | clear
  deriving DecidableEq

namespace Edit

def apply (dispatcher : Dispatcher) : Edit → Dispatcher
  | on event listener => dispatcher.on event listener
  | off event listener => dispatcher.off event listener
  | clear => dispatcher.clear

/-- The subscriptions after some changes, one after the other. -/
def applyAll (edits : List Edit) (dispatcher : Dispatcher) : Dispatcher :=
  edits.foldl apply dispatcher

/-- A change that others make than the collector. -/
def Scripted : Edit → Prop
  | on _ listener | off _ listener => listener.collector? = none
  | clear => True

end Edit

/-! ## Handlers of the collector among the listeners -/

/-- The handlers of the collector among some listeners. -/
def handlers (listeners : List Listener) : List CollectorEvent :=
  listeners.filterMap Listener.collector?

/-- The listeners that are none of the collector's. -/
def others (listeners : List Listener) : List Listener :=
  listeners.filter fun listener => listener.collector?.isNone

section Lists

variable {listener : Listener} {kind : CollectorEvent} (listeners : List Listener)

theorem others_append_of_scripted (scripted : listener.collector? = none) :
    others (listeners ++ [listener]) = others listeners ++ [listener] := by
  simp [others, scripted]

theorem handlers_append_of_scripted (scripted : listener.collector? = none) :
    handlers (listeners ++ [listener]) = handlers listeners := by
  simp [handlers, scripted]

theorem others_append_collector : others (listeners ++ [.collector kind]) = others listeners := by
  simp [others, Listener.collector?]

theorem handlers_append_collector :
    handlers (listeners ++ [.collector kind]) = handlers listeners ++ [kind] := by
  simp [handlers, Listener.collector?]

theorem others_erase_of_scripted (scripted : listener.collector? = none) :
    others (listeners.erase listener) = (others listeners).erase listener := by
  induction listeners with
  | nil => rfl
  | cons first rest ih =>
    by_cases same : first = listener
    · simp [same, others, scripted]
    · rw [List.erase_cons_tail (by simpa using same)]
      by_cases mine : first.collector? = none
      · simpa [others, mine, List.erase_cons_tail, same] using ih
      · simpa [others, mine] using ih

theorem handlers_erase_of_scripted (scripted : listener.collector? = none) :
    handlers (listeners.erase listener) = handlers listeners :=
  collectors_erase scripted listeners

theorem others_erase_collector : others (listeners.erase (.collector kind)) = others listeners := by
  induction listeners with
  | nil => rfl
  | cons first rest ih =>
    by_cases same : first = .collector kind
    · simp [same, others, Listener.collector?]
    · rw [List.erase_cons_tail (by simpa using same)]
      unfold others at ih ⊢
      rw [List.filter_cons, List.filter_cons, ih]

theorem handlers_erase_collector :
    handlers (listeners.erase (.collector kind)) = (handlers listeners).erase kind := by
  induction listeners with
  | nil => rfl
  | cons first rest ih =>
    by_cases same : first = .collector kind
    · simp [same, handlers, Listener.collector?]
    · rw [List.erase_cons_tail (by simpa using same)]
      cases first with
      | scripted name => exact ih
      | collector other =>
        have apart : other ≠ kind := fun equal => same (congrArg Listener.collector equal)
        change other :: handlers (rest.erase (.collector kind)) = (other :: handlers rest).erase kind
        rw [List.erase_cons_tail (by simpa using apart), ih]

theorem others_eq_self (free : handlers listeners = []) : others listeners = listeners := by
  refine List.filter_eq_self.2 fun listener member => ?_
  rw [List.filterMap_eq_nil_iff.1 free listener member]
  rfl

end Lists

/-! ## Attaching and detaching -/

/-- The kinds that some entries give to an event. -/
def kindsFor (entries : List (String × CollectorEvent)) (event : String) : List CollectorEvent :=
  (entries.filter (·.1 == event)).map (·.2)

/-- Handlers of the collector are subscribed. -/
def enlist (entries : List (String × CollectorEvent)) (dispatcher : Dispatcher) : Dispatcher :=
  entries.foldl (fun dispatcher entry => dispatcher.on entry.1 (.collector entry.2)) dispatcher

/-- Handlers of the collector are taken back. -/
def withdraw (entries : List (String × CollectorEvent)) (dispatcher : Dispatcher) : Dispatcher :=
  entries.foldl (fun dispatcher entry => dispatcher.off entry.1 (.collector entry.2)) dispatcher

section Entries

variable (entries : List (String × CollectorEvent)) (dispatcher : Dispatcher) (event : String)

theorem kindsFor_cons (entry : String × CollectorEvent) : kindsFor (entry :: entries) event =
    if event = entry.1 then entry.2 :: kindsFor entries event else kindsFor entries event := by
  by_cases mine : event = entry.1
  · simp [kindsFor, mine]
  · simp [kindsFor, mine, Ne.symm mine]

theorem handlers_enlist : handlers ((enlist entries dispatcher).listeners event) =
    handlers (dispatcher.listeners event) ++ kindsFor entries event := by
  induction entries generalizing dispatcher with
  | nil => simp [enlist, kindsFor]
  | cons entry rest ih =>
    have step : enlist (entry :: rest) dispatcher =
      enlist rest (dispatcher.on entry.1 (.collector entry.2)) := rfl
    rw [step, ih, listeners_on, kindsFor_cons]
    split
    · rename_i mine
      rw [handlers_append_collector, mine, List.append_assoc, List.singleton_append]
    · rfl

theorem others_enlist :
    others ((enlist entries dispatcher).listeners event) = others (dispatcher.listeners event) := by
  induction entries generalizing dispatcher with
  | nil => rfl
  | cons entry rest ih =>
    have step : enlist (entry :: rest) dispatcher =
      enlist rest (dispatcher.on entry.1 (.collector entry.2)) := rfl
    rw [step, ih, listeners_on]
    split
    · rename_i mine
      rw [others_append_collector, mine]
    · rfl

theorem others_withdraw :
    others ((withdraw entries dispatcher).listeners event) = others (dispatcher.listeners event) := by
  induction entries generalizing dispatcher with
  | nil => rfl
  | cons entry rest ih =>
    have step : withdraw (entry :: rest) dispatcher =
      withdraw rest (dispatcher.off entry.1 (.collector entry.2)) := rfl
    rw [step, ih, listeners_off]
    split
    · rename_i mine
      rw [others_erase_collector, mine]
    · rfl

/-- Handlers that were subscribed, or else were cleared away, are gone when they are taken back. -/
theorem handlers_withdraw (subscribed : handlers (dispatcher.listeners event) = [] ∨
      handlers (dispatcher.listeners event) = kindsFor entries event) :
    handlers ((withdraw entries dispatcher).listeners event) = [] := by
  induction entries generalizing dispatcher with
  | nil => exact subscribed.elim id id
  | cons entry rest ih =>
    have step : withdraw (entry :: rest) dispatcher =
      withdraw rest (dispatcher.off entry.1 (.collector entry.2)) := rfl
    rw [step]
    refine ih _ ?_
    rw [listeners_off]
    rw [kindsFor_cons] at subscribed
    split at subscribed
    · rename_i mine
      rw [if_pos mine, handlers_erase_collector, ← mine]
      rcases subscribed with cleared | subscribed
      · exact .inl (by rw [cleared]; rfl)
      · exact .inr (by rw [subscribed, List.erase_cons_head])
    · rename_i apart
      rwa [if_neg apart]

end Entries

/-! ## Changes meanwhile -/

/-- Subscriptions with handlers of the collector and without: the other listeners are the same, in
the same order, and the handlers are those that were subscribed, or all were cleared away. -/
structure Overlaid (entries : List (String × CollectorEvent)) (full plain : Dispatcher) : Prop where
  same : ∀ event, others (full.listeners event) = plain.listeners event
  subscribed : ∀ event, handlers (full.listeners event) = [] ∨
    handlers (full.listeners event) = kindsFor entries event
  free : ∀ event, handlers (plain.listeners event) = []

section Overlaid

variable {entries : List (String × CollectorEvent)} {full plain : Dispatcher} {edit : Edit}

theorem Overlaid.enlist (free : ∀ event, handlers (plain.listeners event) = []) :
    Overlaid entries (enlist entries plain) plain where
  same event := by rw [others_enlist, others_eq_self _ (free event)]
  subscribed event := .inr (by rw [handlers_enlist, free, List.nil_append])
  free := free

/-- A change that others make is made to both. -/
theorem Overlaid.apply (overlaid : Overlaid entries full plain) (scripted : edit.Scripted) :
    Overlaid entries (edit.apply full) (edit.apply plain) := by
  cases edit with
  | on event listener =>
    constructor <;> intro other <;> simp only [Edit.apply, listeners_on] <;> split
    · rw [others_append_of_scripted _ scripted, overlaid.same]
    · exact overlaid.same other
    · rename_i mine
      rw [handlers_append_of_scripted _ scripted, mine]
      exact overlaid.subscribed event
    · exact overlaid.subscribed other
    · rw [handlers_append_of_scripted _ scripted]
      exact overlaid.free event
    · exact overlaid.free other
  | off event listener =>
    constructor <;> intro other <;> simp only [Edit.apply, listeners_off] <;> split
    · rw [others_erase_of_scripted _ scripted, overlaid.same]
    · exact overlaid.same other
    · rename_i mine
      rw [handlers_erase_of_scripted _ scripted, mine]
      exact overlaid.subscribed event
    · exact overlaid.subscribed other
    · rw [handlers_erase_of_scripted _ scripted]
      exact overlaid.free event
    · exact overlaid.free other
  | clear => exact ⟨fun _ => rfl, fun _ => .inl rfl, fun _ => rfl⟩

theorem Overlaid.applyAll {edits : List Edit} (overlaid : Overlaid entries full plain)
    (scripted : ∀ edit ∈ edits, edit.Scripted) :
    Overlaid entries (Edit.applyAll edits full) (Edit.applyAll edits plain) := by
  induction edits generalizing full plain with
  | nil => exact overlaid
  | cons edit rest ih =>
    exact ih (overlaid.apply (scripted edit List.mem_cons_self)) fun other member =>
      scripted other (List.mem_cons_of_mem _ member)

/-- Without the handlers only what the changes have made is left. -/
theorem Overlaid.withdraw (overlaid : Overlaid entries full plain) (event : String) :
    (withdraw entries full).listeners event = plain.listeners event := by
  have gone := handlers_withdraw entries full event (overlaid.subscribed event)
  rw [← others_eq_self _ gone, others_withdraw, overlaid.same]

end Overlaid

end FeatureRunner
