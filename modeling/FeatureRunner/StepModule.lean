import FeatureRunner.Registry

/-!
Step modules while they come to be: functions are defined, marked by decorators and bound to names. The
decorators that have marked a function are kept in a list of their own. A function that takes over the
attributes of another shares its list at first; marking one of the two gives it a new list.
-/

namespace FeatureRunner

/-- What a decorator marks a function as: the context of a scenario, the event in it or its outcome. -/
inductive MarkKind
  | context
  | event
  | outcome
  deriving DecidableEq, Repr

namespace MarkKind

def keyword : MarkKind → String
  | context => "given"
  | event => "when"
  | outcome => "then"

def ofKeyword (keyword : String) : MarkKind :=
  if keyword == event.keyword then event
  else if keyword == outcome.keyword then outcome
  else context

end MarkKind

structure Decorator where
  kind : MarkKind
  pattern : Value
  description : String

def Decorator.mark (decorator : Decorator) : Mark :=
  ⟨decorator.kind.keyword, decorator.pattern, decorator.description⟩

/-- A function of a module, with the number of the list of its decorators, if it is marked. -/
structure ModuleFunction where
  callable : Callable
  list : Option Nat

structure StepModule where
  /-- Lists of decorators from the top, by number. -/
  lists : List (List Decorator)
  /-- The functions by number. -/
  functions : List ModuleFunction
  /-- The names with the numbers of the functions that they are bound to. -/
  names : List (String × Nat)
  listed : ∀ function ∈ functions, ∀ number ∈ function.list, number < lists.length
  distinct : (names.map (·.1)).Nodup

namespace StepModule

def empty : StepModule := ⟨[], [], [], nofun, .nil⟩

variable (module : StepModule)

/-- The number of the list of a function's decorators. -/
def listOf? (number : Nat) : Option Nat :=
  module.functions[number]?.bind (·.list)

/-- The decorators of a function from the top. -/
def decoratorsOf (number : Nat) : List Decorator :=
  ((module.listOf? number).bind (module.lists[·]?)).getD []

theorem lt_of_listOf? {number list : Nat} (has : module.listOf? number = some list) :
    list < module.lists.length := by
  obtain ⟨function, known, has⟩ := Option.bind_eq_some_iff.1 has
  exact module.listed function (List.mem_of_getElem? known) list has

/-- A further function, with the attributes of another if it takes them over. -/
def add (callable : Callable) (original : Option Nat) : StepModule where
  lists := module.lists
  functions := module.functions ++ [⟨callable, original.bind module.listOf?⟩]
  names := module.names
  listed := by
    intro function member number has
    rcases List.mem_append.1 member with member | member
    · exact module.listed function member number has
    · cases List.mem_singleton.1 member
      obtain ⟨_, _, has⟩ := Option.bind_eq_some_iff.1 has
      exact module.lt_of_listOf? has
  distinct := module.distinct

/-- Marks a function: it gets a new list, of the decorator and those that it has. -/
def decorate (number : Nat) (decorator : Decorator) : StepModule where
  lists := module.lists ++ [decorator :: module.decoratorsOf number]
  functions := module.functions.modify number fun function =>
    { function with list := some module.lists.length }
  names := module.names
  listed := by
    intro function member list has
    rw [List.length_append, List.length_singleton]
    obtain ⟨place, placed⟩ := List.mem_iff_getElem?.1 member
    rw [List.getElem?_modify] at placed
    obtain ⟨old, known, rfl⟩ := Option.map_eq_some_iff.1 placed
    split at has
    · cases has
      exact Nat.lt_succ_self _
    · exact Nat.lt_succ_of_lt (module.listed old (List.mem_of_getElem? known) list has)
  distinct := module.distinct

/-- Marks a function by decorators from the top, of which the lowest is applied first. -/
def decorateAll (number : Nat) (decorators : List Decorator) : StepModule :=
  decorators.foldr (fun decorator module => module.decorate number decorator) module

/-- Binds a name to a function, whatever it was bound to before. -/
def bindName (name : String) (number : Nat) : StepModule where
  lists := module.lists
  functions := module.functions
  names := (name, number) :: module.names.filter (·.1 != name)
  listed := module.listed
  distinct := by
    refine List.nodup_cons.2 ⟨?_, module.distinct.sublist (List.filter_sublist.map _)⟩
    simp

/-- Defines a function under its decorators and binds its name to it. -/
def define (name : String) (callable : Callable) (original : Option Nat)
    (decorators : List Decorator) : StepModule :=
  ((module.add callable original).decorateAll module.functions.length decorators).bindName name
    module.functions.length

/-- The attribute that a name and the function that it is bound to make up. -/
def attribute? (entry : String × Nat) : Option MarkedFunction :=
  module.functions[entry.2]?.map fun function =>
    ⟨entry.1, function.callable, (module.decoratorsOf entry.2).map Decorator.mark⟩

/-- The attributes that are marked functions. -/
def marked : List MarkedFunction :=
  (module.names.filter fun entry => (module.listOf? entry.2).isSome).filterMap module.attribute?

end StepModule

end FeatureRunner
