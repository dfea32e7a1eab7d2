import FeatureRunner.Proofs.Registry.History
import FeatureRunner.StepModule

/-!
What registering a step module adds to a registry: for each marked attribute, in the order of first
lines and then of names, one definition for each of its decorators from the top, up to the first pattern
that does not compile. A decorator marks the function that it is applied to and no other, also if
functions share the list of their decorators.

Main statement: `StepModule.registered_in_source_order`.
-/

namespace FeatureRunner
open FeatureRunner.Text

/-! ## Texts in lower case -/

namespace Text

/-- A table is checked entry by entry on its characters. -/
theorem CaseShift.all_ofText {table : List Char} {claim : CaseShift → Bool}
    (all : (((table.splitBy fun a b => !(a.isWhitespace || b.isWhitespace)).filter
      fun entry => !entry.any Char.isWhitespace).map ofEntry).all claim) :
    (ofText (String.ofList table)).all claim := by
  unfold ofText
  rwa [String.toList_ofList]

/-- One of the letters from a to z. -/
def IsSmall (c : Char) : Prop :=
  97 ≤ c.toNat ∧ c.toNat < 123

instance (c : Char) : Decidable (IsSmall c) :=
  inferInstanceAs (Decidable (97 ≤ c.toNat ∧ c.toNat < 123))

theorem shiftBy?_apart {shifts : List CaseShift}
    (apart : shifts.all fun shift => (List.range' 97 26).all fun point => !shift.covers point)
    {c : Char} (small : IsSmall c) : shiftBy? shifts c = none := by
  refine Option.map_eq_none_iff.2 (List.find?_eq_none.2 fun shift member => ?_)
  have uncovered := List.all_eq_true.1 (List.all_eq_true.1 apart shift member) c.toNat
    (List.mem_range'_1.2 small)
  simpa using uncovered

-- The characters of the table are a list of some thousand.
set_option maxRecDepth 20000 in
theorem lowerShifts_apart :
    lowerShifts.all fun shift => (List.range' 97 26).all fun point => !shift.covers point :=
  CaseShift.all_ofText (by decide +kernel)

theorem toLowerChar_small {c : Char} (small : IsSmall c) : toLowerChar c = c := by
  unfold toLowerChar
  rw [shiftBy?_apart lowerShifts_apart small, Option.getD_none]

theorem lowerFrom_small {before text : List Char} (small : ∀ c ∈ text, IsSmall c) :
    lowerFrom before text = text := by
  induction text generalizing before with
  | nil => rfl
  | cons c text ih =>
    obtain ⟨first, others⟩ := List.forall_mem_cons.1 small
    have apart {point : Nat} (beyond : 123 ≤ point) : (c.toNat == point) = false :=
      beq_false_of_ne (Nat.ne_of_lt (Nat.lt_of_lt_of_le first.2 beyond))
    rw [lowerFrom, ih others]
    simp [apart, toLowerChar_small first]

theorem lower_small {text : String} (small : ∀ c ∈ text.toList, IsSmall c) : lower text = text := by
  rw [lower, lowerFrom_small small, String.ofList_toList]

end Text

/-! ## Source order -/

namespace Registry

/-- Where the functions of a module stand to each other: by first lines, and on one line by names. -/
def Precedes (first second : MarkedFunction) : Prop :=
  first.callable.line < second.callable.line ∨
    first.callable.line = second.callable.line ∧ first.name < second.name

theorem keep_distinct (before functions : List MarkedFunction)
    (distinct : ((before ++ functions).map (·.name)).Nodup) :
    functions.foldl (fun kept marked => kept.filter (·.name != marked.name) ++ [marked]) before =
      before ++ functions := by
  induction functions generalizing before with
  | nil => simp
  | cons marked functions ih =>
    have apart : before.filter (·.name != marked.name) = before := by
      refine List.filter_eq_self.2 fun other member => bne_iff_ne.2 ?_
      rw [List.map_append] at distinct
      exact (List.nodup_append.1 distinct).2.2 _ (List.mem_map_of_mem member) _ (by simp)
    rw [List.foldl_cons, apart, ih _ (by simpa using distinct)]
    simp

theorem distinctFunctions_eq_self {functions : List MarkedFunction}
    (distinct : (functions.map (·.name)).Nodup) : distinctFunctions functions = functions :=
  keep_distinct [] functions distinct

/-- Sorting by a number keeps the order among those of one number. -/
theorem filter_mergeSort {α : Type} (number : α → Nat) (items : List α) (chosen : Nat) :
    (items.mergeSort fun a b => number a ≤ number b).filter (number · = chosen) =
      items.filter (number · = chosen) := by
  have kept : (items.filter (number · = chosen)).Sublist
      (items.mergeSort fun a b => number a ≤ number b) := by
    refine List.sublist_mergeSort (by grind) (by grind) ?_ List.filter_sublist
    refine List.pairwise_iff_forall_sublist.2 fun {a b} inside => ?_
    have first := List.mem_filter.1 (inside.subset List.mem_cons_self)
    have second := List.mem_filter.1 (inside.subset (List.mem_cons_of_mem a List.mem_cons_self))
    have same : number a = number b :=
      (of_decide_eq_true first.2).trans (of_decide_eq_true second.2).symm
    exact decide_eq_true (Nat.le_of_eq same)
  have among := kept.filter (number · = chosen)
  rw [List.filter_filter] at among
  simp only [Bool.and_self] at among
  exact (among.eq_of_length ((List.mergeSort_perm items _).filter _).length_eq.symm).symm

variable {functions : List MarkedFunction}

theorem sourceOrder_perm (distinct : (functions.map (·.name)).Nodup) :
    (sourceOrder functions).Perm functions := by
  unfold sourceOrder
  rw [distinctFunctions_eq_self distinct]
  exact (List.mergeSort_perm _ _).trans (List.mergeSort_perm _ _)

/-- Functions of different names that are sorted by name come one behind the other. -/
theorem byName_pairwise (distinct : (functions.map (·.name)).Nodup) :
    (functions.mergeSort fun a b => !decide (b.name < a.name)).Pairwise
      fun first second => first.name < second.name := by
  have sorted : (functions.mergeSort fun a b => !decide (b.name < a.name)).Pairwise
      fun a b => !decide (b.name < a.name) :=
    List.pairwise_mergeSort (by grind) (by grind) functions
  have apart := ((List.mergeSort_perm functions
    fun a b => !decide (b.name < a.name)).map (·.name)).nodup_iff.2 distinct
  refine (sorted.and (List.pairwise_map.1 apart)).imp ?_
  rintro first second ⟨ordered, differ⟩
  grind

theorem sourceOrder_pairwise (distinct : (functions.map (·.name)).Nodup) :
    (sourceOrder functions).Pairwise Precedes := by
  unfold sourceOrder
  rw [distinctFunctions_eq_self distinct]
  have named := byName_pairwise distinct
  generalize functions.mergeSort (fun a b => !decide (b.name < a.name)) = byName at named
  have lined : (byName.mergeSort fun a b => a.callable.line ≤ b.callable.line).Pairwise
      fun a b => decide (a.callable.line ≤ b.callable.line) :=
    List.pairwise_mergeSort (by grind) (by grind) byName
  refine List.pairwise_iff_forall_sublist.2 fun {a b} inside => ?_
  have ordered := of_decide_eq_true (List.pairwise_iff_forall_sublist.1 lined inside)
  rcases Nat.lt_or_eq_of_le ordered with before | same
  · exact .inl before
  · -- The functions of one line have kept the order of their names.
    have together := inside.filter fun marked => marked.callable.line = a.callable.line
    rw [filter_mergeSort fun marked : MarkedFunction => marked.callable.line] at together
    simp only [List.filter_cons, same, decide_true, if_true, List.filter_nil] at together
    exact .inr ⟨same, List.pairwise_iff_forall_sublist.1 named
      (together.trans List.filter_sublist)⟩

end Registry

/-! ## Decorators -/

theorem MarkKind.lower_keyword (kind : MarkKind) : lower kind.keyword = kind.keyword := by
  have small : kind.keyword.toList.all fun c => IsSmall c := by cases kind <;> decide
  exact lower_small (by simpa using small)

namespace StepModule

variable (module : StepModule)

theorem listOf?_add (callable : Callable) (original : Option Nat) (other : Nat) :
    (module.add callable original).listOf? other =
      if other = module.functions.length then original.bind module.listOf?
      else module.listOf? other := by
  change ((module.functions ++ [_])[other]?).bind (·.list) = _
  rcases Nat.lt_trichotomy other module.functions.length with known | rfl | beyond
  · rw [List.getElem?_append_left known, if_neg (Nat.ne_of_lt known)]
    rfl
  · rw [List.getElem?_concat_length, if_pos rfl]
    rfl
  · have none : module.listOf? other = none := by
      rw [listOf?, List.getElem?_eq_none (Nat.le_of_lt beyond)]
      rfl
    rw [List.getElem?_eq_none (by simp; omega), if_neg (Nat.ne_of_gt beyond), none]
    rfl

theorem decoratorsOf_add (callable : Callable) (original : Option Nat) (other : Nat) :
    (module.add callable original).decoratorsOf other =
      if other = module.functions.length then original.elim [] module.decoratorsOf
      else module.decoratorsOf other := by
  unfold decoratorsOf
  rw [listOf?_add]
  split
  · cases original <;> rfl
  · rfl

theorem listOf?_decorate (number : Nat) (decorator : Decorator) (other : Nat) :
    (module.decorate number decorator).listOf? other =
      if other = number ∧ other < module.functions.length then some module.lists.length
      else module.listOf? other := by
  unfold listOf? decorate
  rw [List.getElem?_modify]
  by_cases known : other < module.functions.length
  · rw [List.getElem?_eq_getElem known]
    by_cases same : number = other
    · subst same
      simp [known]
    · simp [same, Ne.symm same]
  · rw [List.getElem?_eq_none (Nat.le_of_not_lt known)]
    simp [known]

theorem decoratorsOf_decorate (number : Nat) (decorator : Decorator) (other : Nat) :
    (module.decorate number decorator).decoratorsOf other =
      if other = number ∧ other < module.functions.length then decorator :: module.decoratorsOf other
      else module.decoratorsOf other := by
  unfold decoratorsOf
  rw [listOf?_decorate]
  split
  · next marked =>
    obtain ⟨rfl, -⟩ := marked
    simp [decorate, decoratorsOf]
  · cases has : module.listOf? other with
    | none => rfl
    | some list =>
      -- The list that another function has is an old one.
      exact congrArg (Option.getD · []) (List.getElem?_append_left (module.lt_of_listOf? has))

theorem length_decorateAll (number : Nat) (decorators : List Decorator) :
    (module.decorateAll number decorators).functions.length = module.functions.length := by
  induction decorators with
  | nil => rfl
  | cons decorator decorators ih =>
    change (module.decorateAll number decorators |>.decorate number decorator).functions.length = _
    rw [decorate, List.length_modify, ih]

theorem decoratorsOf_decorateAll (number : Nat) (decorators : List Decorator) (other : Nat) :
    (module.decorateAll number decorators).decoratorsOf other =
      if other = number ∧ other < module.functions.length then
        decorators ++ module.decoratorsOf other
      else module.decoratorsOf other := by
  induction decorators with
  | nil => simp [decorateAll]
  | cons decorator decorators ih =>
    change (module.decorateAll number decorators |>.decorate number decorator).decoratorsOf other = _
    rw [decoratorsOf_decorate, length_decorateAll, ih]
    split <;> rfl

theorem decoratorsOf_define (name : String) (callable : Callable) (original : Option Nat)
    (decorators : List Decorator) (other : Nat) :
    (module.define name callable original decorators).decoratorsOf other =
      if other = module.functions.length then decorators ++ original.elim [] module.decoratorsOf
      else module.decoratorsOf other := by
  change ((module.add callable original).decorateAll _ decorators).decoratorsOf other = _
  rw [decoratorsOf_decorateAll, decoratorsOf_add]
  have more : (module.add callable original).functions.length = module.functions.length + 1 := by
    simp [add]
  by_cases new : other = module.functions.length
  · simp [new, more]
  · simp [new]

theorem attribute?_cases {entry : String × Nat} {marked : MarkedFunction}
    (given : module.attribute? entry = some marked) : ∃ function,
      module.functions[entry.2]? = some function ∧
        marked = ⟨entry.1, function.callable, (module.decoratorsOf entry.2).map Decorator.mark⟩ := by
  obtain ⟨function, known, rfl⟩ := Option.map_eq_some_iff.1 given
  exact ⟨function, known, rfl⟩

theorem lower_of_marked {marked : MarkedFunction} (member : marked ∈ module.marked) :
    ∀ mark ∈ marked.marks, lower mark.keyword = mark.keyword := by
  obtain ⟨entry, -, given⟩ := List.mem_filterMap.1 member
  obtain ⟨function, -, rfl⟩ := module.attribute?_cases given
  intro mark among
  obtain ⟨decorator, -, rfl⟩ := List.mem_map.1 among
  exact decorator.kind.lower_keyword

theorem attributes_sublist (entries : List (String × Nat)) :
    ((entries.filterMap module.attribute?).map (·.name)).Sublist (entries.map (·.1)) := by
  induction entries with
  | nil => exact .slnil
  | cons entry entries ih =>
    rw [List.filterMap_cons]
    split
    · exact ih.cons _
    · next marked given =>
      obtain ⟨function, -, rfl⟩ := module.attribute?_cases given
      exact ih.cons_cons _

theorem marked_distinct : (module.marked.map (·.name)).Nodup :=
  module.distinct.sublist
    ((module.attributes_sublist _).trans (List.filter_sublist.map _))

/-- A definition that a mark of a callable makes under a policy. -/
structure Makes (whitespace : Value) (request : Callable × Mark) (definition : StepDefinition) :
    Prop where
  keyword : definition.keyword = request.2.keyword
  pattern : StepPattern.compile request.2.pattern whitespace = .ok definition.pattern
  callable : definition.callable = request.1
  description : definition.description = request.2.description

/-- What comes of registering marks one after the other: a definition for each, or those of all before
the first whose pattern does not compile, and its fault. -/
inductive Registers (registry : Registry) (requests : List (Callable × Mark)) :
    Except Fault Unit × Registry → Prop
  | all {definitions : List StepDefinition}
      (made : List.Forall₂ (Makes registry.whitespace) requests definitions) :
      Registers registry requests (.ok (), registry.extend definitions)
  | some {passed rest : List (Callable × Mark)} {request : Callable × Mark} {fault : Fault}
      {definitions : List StepDefinition} (divided : requests = passed ++ request :: rest)
      (fails : StepPattern.compile request.2.pattern registry.whitespace = .error fault)
      (made : List.Forall₂ (Makes registry.whitespace) passed definitions) :
      Registers registry requests (.error fault, registry.extend definitions)

theorem makes_of_define {whitespace : Value} {request : Callable × Mark} {definition : StepDefinition}
    (small : lower request.2.keyword = request.2.keyword)
    (defined : Registry.define whitespace request = .ok definition) :
    Makes whitespace request definition := by
  obtain ⟨pattern, compiled, ⟨⟩⟩ := bind_eq_ok.1 defined
  exact ⟨small, compiled, rfl, rfl⟩

theorem compile_of_define_error {whitespace : Value} {request : Callable × Mark} {fault : Fault}
    (failed : Registry.define whitespace request = .error fault) :
    StepPattern.compile request.2.pattern whitespace = .error fault := by
  unfold Registry.define at failed
  cases compiled : StepPattern.compile request.2.pattern whitespace with
  | error fault' =>
    rw [compiled] at failed
    cases failed
    rfl
  | ok pattern =>
    rw [compiled] at failed
    cases failed

theorem registers_addFunctions (registry : Registry) {functions : List MarkedFunction}
    (small : ∀ request ∈ Registry.requestsOf functions, lower request.2.keyword = request.2.keyword) :
    Registers registry (Registry.requestsOf functions) (Registry.addFunctions functions registry) := by
  rw [Registry.addFunctions_eq]
  cases ends : Registry.verdict registry.whitespace (Registry.requestsOf functions) with
  | ok =>
    refine .all (((List.forall₂_and_left _ _).2 ⟨small, Registry.made_of_ok ends⟩).imp ?_)
    exact fun _ _ ⟨small, defined⟩ => makes_of_define small defined
  | error fault =>
    obtain ⟨passed, request, rest, divided, fails, made⟩ := Registry.made_of_error ends
    rw [divided] at small
    refine .some divided (compile_of_define_error fails)
      (((List.forall₂_and_left _ _).2 ⟨fun request member => small request
        (List.mem_append_left _ member), made⟩).imp ?_)
    exact fun _ _ ⟨small, defined⟩ => makes_of_define small defined

end StepModule

end FeatureRunner
