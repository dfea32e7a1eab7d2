import FeatureRunner.Proofs.Pattern.Acceptance
import FeatureRunner.Proofs.Suite.Layout
import FeatureRunner.Script.Program

/-!
The arguments with which the body of a step is called. A match is called with its parameters in
three ways, and whichever is taken the body gets the same arguments: as many of the parameters as
it has places for, or all of them if it takes any number or shows no signature.

Main statement: `step_arguments_fit`.
-/

namespace FeatureRunner

/-! ## Declarations -/

/-- How arguments reach a parameter. -/
inductive ParameterKind
  | positionalOnly
  /-- By position or by name. -/
  | positional
  /-- All further positional arguments. -/
  | rest
  /-- By name only. -/
  | named
  /-- All further arguments that are given by name. -/
  | extra
  deriving DecidableEq, Repr

def ParameterKind.hasPosition : ParameterKind → Bool
  | positionalOnly | positional => true
  | rest | named | extra => false

structure Parameter where
  name : String
  kind : ParameterKind
  hasDefault : Bool
  deriving DecidableEq, Repr

/-- The parameters of a function as it declares them. Among those with a position, none without a
default comes after one with a default. -/
structure Declaration where
  parameters : List Parameter
  ordered : (parameters.filter (·.kind.hasPosition)).Pairwise fun before behind =>
    before.hasDefault = true → behind.hasDefault = true

namespace Declaration

/-- Counts the positional arguments that some parameters take, one parameter after the other, until
one takes all that are left. -/
def countPlaces (accepted : Nat) : List Parameter → Option Nat
  | [] => some accepted
  | parameter :: rest =>
    match parameter.kind with
    | .rest => none
    | .positionalOnly | .positional => countPlaces (accepted + 1) rest
    | .named | .extra => countPlaces accepted rest

variable (declaration : Declaration)

def positioned : List Parameter :=
  declaration.parameters.filter (·.kind.hasPosition)

def variadic : Bool :=
  declaration.parameters.any (·.kind = .rest)

def signature : Signature where
  params := declaration.positioned.map (·.name)
  required := declaration.positioned.countP (!·.hasDefault)
  variadic := declaration.variadic
  requiredNames := (declaration.parameters.filter fun parameter =>
    parameter.kind = .named ∧ parameter.hasDefault = false).map (·.name)

/-- Something without a default gets nothing when so many arguments are given by position: a
parameter that they do not reach, or one that is given by name. -/
def Unmet (given : Nat) : Prop :=
  (∃ index parameter, declaration.positioned[index]? = some parameter ∧
    parameter.hasDefault = false ∧ given ≤ index) ∨
  ∃ parameter ∈ declaration.parameters, parameter.kind = .named ∧ parameter.hasDefault = false

theorem countPlaces_eq (accepted : Nat) (parameters : List Parameter) :
    countPlaces accepted parameters =
      if parameters.any (·.kind = .rest) then none
      else some (accepted + (parameters.filter (·.kind.hasPosition)).length) := by
  induction parameters generalizing accepted with
  | nil => rfl
  | cons parameter parameters ih =>
    rw [countPlaces]
    cases kind : parameter.kind <;> simp [kind, ih, ParameterKind.hasPosition] <;>
      (split <;> simp; omega)

/-- The parameters without a default are the first of those with a position. -/
theorem hasDefault_iff {parameters : List Parameter} (ordered : parameters.Pairwise
    fun before behind => before.hasDefault = true → behind.hasDefault = true)
    {index : Nat} {parameter : Parameter} (placed : parameters[index]? = some parameter) :
    parameter.hasDefault = false ↔ index < parameters.countP (!·.hasDefault) := by
  induction parameters generalizing index with
  | nil => cases placed
  | cons first rest ih =>
    obtain ⟨behind, ordered⟩ := List.pairwise_cons.1 ordered
    cases has : first.hasDefault with
    | false =>
      rw [List.countP_cons_of_pos (by simp [has])]
      cases index with
      | zero =>
        obtain rfl : first = parameter := by simpa using placed
        simp [has]
      | succ index => exact (ih ordered (by simpa using placed)).trans (by omega)
    | true =>
      -- Everything behind a default has one.
      have all : ∀ other ∈ first :: rest, other.hasDefault = true :=
        List.forall_mem_cons.2 ⟨has, fun other member => behind other member has⟩
      rw [List.countP_eq_zero.2 fun other member => by simp [all other member]]
      simp [all parameter (List.mem_of_getElem? placed)]

theorem signature_lacks_position_iff {given : Nat} :
    (declaration.signature.params.take declaration.signature.required).drop given ≠ [] ↔
      ∃ index parameter, declaration.positioned[index]? = some parameter ∧
        parameter.hasDefault = false ∧ given ≤ index := by
  have few : declaration.signature.required ≤ declaration.signature.params.length := by
    simpa [signature] using List.countP_le_length
  have long : (declaration.signature.params.take declaration.signature.required).drop given ≠ [] ↔
      given < declaration.signature.required := by
    rw [← List.length_pos_iff, List.length_drop, List.length_take]
    omega
  rw [long]
  constructor
  · intro less
    have inside : given < declaration.positioned.length := by
      simpa [signature] using less.trans_le few
    have placed := List.getElem?_eq_getElem inside
    exact ⟨given, _, placed, (hasDefault_iff declaration.ordered placed).2 less, le_rfl⟩
  · rintro ⟨index, parameter, placed, lacks, behind⟩
    exact behind.trans_lt ((hasDefault_iff declaration.ordered placed).1 lacks)

theorem signature_lacks_name_iff : declaration.signature.requiredNames ≠ [] ↔
    ∃ parameter ∈ declaration.parameters, parameter.kind = .named ∧ parameter.hasDefault = false := by
  simp [signature]

theorem bind_signature (name : String) {args : List Value}
    (few : declaration.variadic = false → args.length ≤ declaration.positioned.length) :
    (declaration.Unmet args.length → ∃ byName names, names ≠ [] ∧
      declaration.signature.bind name args = .error (.missingArguments name byName names)) ∧
    (¬ declaration.Unmet args.length → declaration.signature.bind name args =
      .ok (args ++ List.replicate (declaration.positioned.length - args.length) .null)) := by
  have fits : (!declaration.signature.variadic &&
      decide (declaration.signature.params.length < args.length)) = false := by
    cases variadic : declaration.variadic <;> simp_all [signature]
  unfold Unmet Signature.bind
  rw [← signature_lacks_position_iff, ← signature_lacks_name_iff]
  simp only [fits, Bool.false_eq_true, if_false]
  cases unreached : (declaration.signature.params.take declaration.signature.required).drop
      args.length with
  | cons first others => simp
  | nil =>
    cases unnamed : declaration.signature.requiredNames with
    | cons first others => simp
    | nil => simp [signature]

end Declaration

namespace Signature

variable (signature : Signature)

def positioned : List Parameter :=
  (signature.params.take signature.required).map (⟨·, .positional, false⟩) ++
    (signature.params.drop signature.required).map (⟨·, .positional, true⟩)

/-- The parameters that take no place: all further arguments, and what is required by name. -/
def unplaced : List Parameter :=
  (if signature.variadic then [⟨"rest", .rest, false⟩] else []) ++
    signature.requiredNames.map (⟨·, .named, false⟩)

theorem filter_positioned :
    (signature.positioned ++ signature.unplaced).filter (·.kind.hasPosition) = signature.positioned := by
  have all : ∀ parameter ∈ signature.positioned, parameter.kind.hasPosition = true := by
    intro parameter member
    rcases List.mem_append.1 member with member | member <;>
      (obtain ⟨_, -, rfl⟩ := List.mem_map.1 member; rfl)
  have none : ∀ parameter ∈ signature.unplaced, ¬ parameter.kind.hasPosition = true := by
    intro parameter member
    rcases List.mem_append.1 member with member | member
    · split at member
      · cases List.mem_singleton.1 member
        simp [ParameterKind.hasPosition]
      · cases member
    · obtain ⟨_, -, rfl⟩ := List.mem_map.1 member
      simp [ParameterKind.hasPosition]
  rw [List.filter_append, List.filter_eq_self.2 all, List.filter_eq_nil_iff.2 none, List.append_nil]

/-- A declaration that amounts to a signature. -/
def declaration : Declaration where
  parameters := signature.positioned ++ signature.unplaced
  ordered := by
    rw [filter_positioned]
    refine List.pairwise_append.2 ⟨?_, ?_, ?_⟩
    · exact List.pairwise_map.2 (List.pairwise_of_forall fun _ _ => nofun)
    · exact List.pairwise_map.2 (List.pairwise_of_forall fun _ _ _ => rfl)
    · intro before first _ _ has
      obtain ⟨_, -, rfl⟩ := List.mem_map.1 first
      cases has

theorem declaration_signature {signature : Signature}
    (few : signature.required ≤ signature.params.length) :
    signature.declaration.signature = signature := by
  cases signature with
  | mk params required variadic requiredNames =>
    unfold Declaration.signature Declaration.variadic Declaration.positioned declaration
    simp only [filter_positioned]
    congr 1
    · simp [positioned, Function.comp_def]
    · simp [positioned, List.countP_map, Function.comp_def, -List.map_take, -List.map_drop]
      exact few
    · cases variadic <;> simp [positioned, unplaced, -List.map_take, -List.map_drop]
    · cases variadic <;> simp [positioned, unplaced, List.filter_map, Function.comp_def,
        -List.map_take, -List.map_drop]

end Signature

/-! ## Bodies -/

namespace Callable

/-- What a callable shows as its signature: a function what it declares, and the methods of a list
their parameters. -/
inductive Declares : Callable → Declaration → Prop
  | script (name : String) (declaration : Declaration) (suspends : Bool) (line : Nat)
      (actions : List Action) :
      Declares (.script name declaration.signature suspends false line actions) declaration
  | append : Declares (.builtin .append)
      ⟨[⟨"object", .positionalOnly, false⟩], List.pairwise_singleton _ _⟩
  | clear : Declares (.builtin .clear) ⟨[], .nil⟩

/-- A callable that shows no signature, or only that it passes all it is given on to another. -/
def Unreadable : Callable → Prop
  | script _ _ _ nameless _ _ => nameless = true
  | builtin kind => kind = .largest

/-- The fault of a call that lacks arguments. -/
inductive TooFew : Callable → Fault → Prop
  | script {name : String} {signature : Signature} {suspends nameless : Bool} {line : Nat}
      {actions : List Action} (byName : Bool) {names : List String} (lacking : names ≠ []) :
      TooFew (.script name signature suspends nameless line actions)
        (.missingArguments name byName names)
  | append : TooFew (.builtin .append)
      (.misuse "list.append() takes exactly one argument (0 given)")

/-- A function that shows its signature declares something that amounts to it. -/
theorem exists_declares (name : String) {signature : Signature} (suspends : Bool) (line : Nat)
    (actions : List Action) (few : signature.required ≤ signature.params.length) :
    ∃ declaration, Declares (.script name signature suspends false line actions) declaration :=
  ⟨signature.declaration, by
    conv => arg 1; rw [← signature.declaration_signature few]
    exact .script name signature.declaration suspends line actions⟩

/-- The arguments as they are bound to the parameters of a callable. -/
def bind (args : List Value) : Callable → Except Fault (List Value)
  | script name signature .. => signature.bind name args
  | builtin kind => (kind.call args).map fun _ => args

/-- What a callable does when its arguments are bound to its parameters. -/
def body (role : Role) (bound : List Value) : Callable → Program Value
  | script _ _ suspends _ _ actions =>
    runActions role bound (if suspends then actions else actions.filter (!·.suspends))
  | builtin kind => Program.ofExcept (kind.call bound)

theorem program_eq (role : Role) (args : List Value) (callable : Callable) :
    callable.program role args = (do callable.body role (← Program.ofExcept (callable.bind args))) := by
  cases callable with
  | script => rfl
  | builtin kind =>
    change Program.ofExcept (kind.call args) = (do
      Program.ofExcept (kind.call (← Program.ofExcept ((kind.call args).map fun _ => args))))
    cases called : kind.call args with
    | error fault => rfl
    | ok value =>
      change _ = Program.ofExcept (kind.call args)
      rw [called]

/-- Binding fails for missing arguments only, and exactly when some are missing, if no more are
given than there are places. -/
theorem bind_of_declares {callable : Callable} {declaration : Declaration} {args : List Value}
    (declares : callable.Declares declaration)
    (few : declaration.variadic = false → args.length ≤ declaration.positioned.length) :
    (declaration.Unmet args.length → ∃ fault, callable.TooFew fault ∧
      callable.bind args = .error fault) ∧
    (¬ declaration.Unmet args.length → callable.bind args =
      .ok (args ++ List.replicate (declaration.positioned.length - args.length) .null)) := by
  cases declares with
  | script name declaration =>
    obtain ⟨lacking, enough⟩ := declaration.bind_signature name few
    refine ⟨fun unmet => ?_, enough⟩
    obtain ⟨byName, names, lacks, fails⟩ := lacking unmet
    exact ⟨_, .script byName lacks, fails⟩
  | append =>
    cases args with
    | nil =>
      refine ⟨fun _ => ⟨_, .append, rfl⟩, fun met => (met (.inl ?_)).elim⟩
      exact ⟨0, ⟨"object", .positionalOnly, false⟩, rfl, rfl, le_rfl⟩
    | cons argument rest =>
      obtain rfl : rest = [] := List.length_eq_zero_iff.1 (Nat.le_zero.1 (Nat.le_of_succ_le_succ (few rfl)))
      refine ⟨fun unmet => ?_, fun _ => rfl⟩
      rcases unmet with ⟨index, parameter, placed, -, behind⟩ | ⟨parameter, member, named, -⟩
      · exact absurd (List.getElem?_eq_some_iff.1 placed).1 (Nat.not_lt.2 behind)
      · obtain rfl := List.mem_singleton.1 member
        cases named
  | clear =>
    obtain rfl : args = [] := List.length_eq_zero_iff.1 (Nat.le_zero.1 (few rfl))
    refine ⟨fun unmet => ?_, fun _ => rfl⟩
    rcases unmet with ⟨index, parameter, placed, -⟩ | ⟨parameter, member, -⟩
    · cases placed
    · cases member

theorem positionalBound_of_declares {callable : Callable} {declaration : Declaration}
    (declares : callable.Declares declaration) :
    callable.positionalBound = Declaration.countPlaces 0 declaration.parameters := by
  rw [Declaration.countPlaces_eq, Nat.zero_add]
  cases declares with
  | script =>
    simp only [positionalBound, Declaration.signature, Bool.false_or, List.length_map]
    rfl
  | append => rfl
  | clear => rfl

theorem fitArguments_of_declares {callable : Callable} {declaration : Declaration}
    (declares : callable.Declares declaration) (args : List Value) :
    callable.fitArguments args =
      if declaration.variadic then args else args.take declaration.positioned.length := by
  have bound : callable.positionalBound =
      if declaration.variadic then none else some declaration.positioned.length := by
    rw [positionalBound_of_declares declares, Declaration.countPlaces_eq, Nat.zero_add]
    rfl
  unfold fitArguments
  rw [bound]
  cases declaration.variadic <;> rfl

theorem fitArguments_of_unreadable {callable : Callable} (unreadable : callable.Unreadable)
    (args : List Value) : callable.fitArguments args = args := by
  cases callable with
  | script =>
    cases unreadable
    rfl
  | builtin =>
    cases unreadable
    rfl

end Callable

/-! ## Parameters -/

/-- A value that is neither a list nor a tuple. -/
def Value.Flat (value : Value) : Prop :=
  ∀ items, value ≠ .list items ∧ value ≠ .tuple items

theorem PlaceholderKind.Holds.flat {kind : PlaceholderKind} {value : Value} (holds : kind.Holds value) :
    value.Flat := by
  cases holds <;> exact fun _ => ⟨nofun, nofun⟩

theorem Value.flat_null : Value.null.Flat :=
  fun _ => ⟨Value.noConfusion, Value.noConfusion⟩

theorem PlaceholderPattern.coerceGroups_flat {slots : List Placeholder}
    {texts : List (Option (List Char))} {params : List Value}
    (read : coerceGroups slots texts = .ok params) : ∀ value ∈ params, value.Flat := by
  have none (value : Value) (member : value ∈ []) : value.Flat := absurd member List.not_mem_nil
  induction slots generalizing texts params with
  | nil =>
    cases read
    exact none
  | cons slot slots ih =>
    cases texts with
    | nil =>
      cases read
      exact none
    | cons text texts =>
      unfold coerceGroups at read
      cases text with
      | none =>
        obtain ⟨_, ⟨⟩, read⟩ := bind_eq_ok.1 read
        obtain ⟨values, others, ⟨⟩⟩ := bind_eq_ok.1 read
        exact List.forall_mem_cons.2 ⟨Value.flat_null, ih others⟩
      | some held =>
        obtain ⟨value, first, read⟩ := bind_eq_ok.1 read
        obtain ⟨values, others, ⟨⟩⟩ := bind_eq_ok.1 read
        exact List.forall_mem_cons.2 ⟨(coerce_holds first).flat, ih others⟩

theorem StepPattern.match?_flat {pattern : StepPattern} {text : String} {params : List Value}
    (matched : pattern.match? text = .ok (some params)) : ∀ value ∈ params, value.Flat := by
  cases pattern with
  | placeholders pattern =>
    unfold match? PlaceholderPattern.match? at matched
    dsimp only at matched
    split at matched
    · cases matched
    · obtain ⟨values, read, ⟨⟩⟩ := bind_eq_ok.1 matched
      exact PlaceholderPattern.coerceGroups_flat read
  | regex written expression groups =>
    unfold match? at matched
    dsimp only at matched
    split at matched
    · cases matched
    · next captures _ =>
      cases matched
      intro value member
      obtain ⟨held, -, rfl⟩ := List.mem_map.1 member
      cases held <;> exact fun _ => ⟨nofun, nofun⟩

theorem FeatureStep.arguments_flat (step : FeatureStep) : ∀ value ∈ step.arguments, value.Flat := by
  intro value member
  unfold arguments at member
  rcases List.mem_append.1 member with table | text
  · obtain ⟨_, -, rfl⟩ := by simpa using table
    exact fun _ => ⟨nofun, nofun⟩
  · obtain ⟨_, -, rfl⟩ := by simpa using text
    exact fun _ => ⟨nofun, nofun⟩

theorem ResolvedStep.params_flat {registry : Registry} {step : FeatureStep} {resolved : ResolvedStep}
    (known : resolve registry step = .ok resolved) : ∀ value ∈ resolved.found.params, value.Flat := by
  obtain ⟨-, -, params, first, given⟩ := resolve_eq_ok.1 known
  rw [given]
  intro value member
  rcases List.mem_append.1 member with matched | under
  · exact StepPattern.match?_flat first.gives value matched
  · exact step.arguments_flat value under

/-! ## Calls -/

namespace StepMatch

variable (found : StepMatch)

/-- The ways to call a match with its own parameters: without arguments, with the parameters as one
list or tuple, and with each of them as an argument. -/
def styles : List (List Value) :=
  [[], [.list found.params], [.tuple found.params], found.params]

/-- How the body of a match that declares its parameters is called: with all that the match has or
with as many as there are places. Either something required is missing, which is the fault of the
call, or the body runs with the arguments and nulls in the other places. -/
structure Fits (declaration : Declaration) (args : List Value) : Prop where
  given : args = if declaration.variadic then found.params
    else found.params.take declaration.positioned.length
  lacking : declaration.Unmet found.params.length → ∃ fault,
    found.definition.callable.TooFew fault ∧
    found.definition.callable.program .step args = Program.throw fault ∧
    (found.definition.callable.suspends = true → found.begin [] = Program.throw fault)
  enough : ¬ declaration.Unmet found.params.length →
    found.definition.callable.program .step args = found.definition.callable.body .step
      (args ++ List.replicate (declaration.positioned.length - args.length) .null) ∧
    (found.definition.callable.suspends = true → found.begin [] = pure (.text "coroutine"))

/-- A call takes its arguments as they are if there are some, or none for no parameters, and they are
not a single sequence. -/
theorem arguments_eq_self {found : StepMatch} {args : List Value}
    (unlike : args = [] → found.params = []) (single : ∀ value, args = [value] → value.Flat) :
    found.arguments args = args := by
  unfold arguments
  split
  · exact unlike rfl
  · next items => exact absurd rfl (single _ rfl items).1
  · next items => exact absurd rfl (single _ rfl items).2
  · rfl

theorem arguments_of_flat {found : StepMatch} {args : List Value}
    (flat : ∀ value ∈ args, value.Flat) (some : args ≠ []) : found.arguments args = args := by
  refine arguments_eq_self (fun none => absurd none some) ?_
  rintro value rfl
  exact flat value List.mem_cons_self

theorem arguments_of_style {found : StepMatch} (flat : ∀ value ∈ found.params, value.Flat)
    {style : List Value} (known : style ∈ found.styles) :
    found.arguments style = found.params := by
  simp only [styles, List.mem_cons, List.not_mem_nil, or_false] at known
  rcases known with rfl | rfl | rfl | rfl
  · rfl
  · rfl
  · rfl
  · cases params : found.params with
    | nil => exact params
    | cons first rest => exact arguments_of_flat (params ▸ flat) (List.cons_ne_nil _ _)

/-- A callable that suspends only binds its arguments when it is called. -/
theorem begin_of_suspends {found : StepMatch} (suspends : found.definition.callable.suspends = true)
    (args : List Value) : found.begin args = (do
      let _ ← Program.ofExcept (found.definition.callable.bind
        (found.definition.callable.fitArguments (found.arguments args)))
      return .text "coroutine") := by
  unfold begin
  cases callable : found.definition.callable with
  | script =>
    rw [callable] at suspends
    cases suspends
    rfl
  | builtin =>
    rw [callable] at suspends
    cases suspends

/-- Arguments that have no place do not count. -/
theorem unmet_take {declaration : Declaration} (params : List Value) :
    declaration.Unmet (params.take declaration.positioned.length).length ↔
      declaration.Unmet params.length := by
  unfold Declaration.Unmet
  refine or_congr_left ⟨?_, ?_⟩
  all_goals
    rintro ⟨index, parameter, placed, lacks, behind⟩
    have inside := (List.getElem?_eq_some_iff.1 placed).1
    refine ⟨index, parameter, placed, lacks, ?_⟩
    rw [List.length_take] at *
    omega

/-- A body that declares its parameters fits the match it is called by. -/
theorem fits_of_declares {found : StepMatch} {declaration : Declaration}
    (declares : found.definition.callable.Declares declaration) :
    found.Fits declaration (found.definition.callable.fitArguments found.params) := by
  have given := Callable.fitArguments_of_declares declares found.params
  generalize fitted : found.definition.callable.fitArguments found.params = args at given
  have few (cut : declaration.variadic = false) : args.length ≤ declaration.positioned.length := by
    rw [given, cut]
    exact List.length_take_le _ _
  have unmet : declaration.Unmet args.length ↔ declaration.Unmet found.params.length := by
    rw [given]
    cases declaration.variadic with
    | true => rfl
    | false => exact unmet_take found.params
  obtain ⟨lacking, enough⟩ := Callable.bind_of_declares declares few
  rw [unmet] at lacking enough
  refine ⟨given, fun lacks => ?_, fun has => ?_⟩
  · obtain ⟨fault, tooFew, fails⟩ := lacking lacks
    refine ⟨fault, tooFew, ?_, fun suspends => ?_⟩
    · rw [Callable.program_eq, fails]
      rfl
    · rw [begin_of_suspends suspends, arguments, fitted, fails]
      rfl
  · have bound := enough has
    refine ⟨?_, fun suspends => ?_⟩
    · rw [Callable.program_eq, bound]
      rfl
    · rw [begin_of_suspends suspends, arguments, fitted, bound]
      rfl

/-- The match of a resolved step, with the table and the text under the step, calls its body with the
same arguments whether it is called without any, with its parameters as one list or tuple, or with
each of them. They are all its parameters if the body shows no signature, and otherwise those that
the body has places for, or all if it takes any number. So it is never called with too many, and the
call fails for its arguments exactly when a parameter without a default has no argument in its place
or can only be given by name; else the body runs. -/
theorem step_arguments_fit {registry : Registry} {step : FeatureStep} {resolved : ResolvedStep}
    (known : ResolvedStep.resolve registry step = .ok resolved) :
    ∃ args, (∀ style ∈ resolved.found.styles,
        resolved.found.call style = Program.call .step resolved.found.definition.callable args ∧
        resolved.found.begin style = resolved.found.begin []) ∧
      (resolved.found.definition.callable.Unreadable → args = resolved.found.params) ∧
      ∀ declaration, resolved.found.definition.callable.Declares declaration →
        resolved.found.Fits declaration args := by
  have flat := ResolvedStep.params_flat known
  refine ⟨_, fun style among => ?_, fun unreadable =>
    Callable.fitArguments_of_unreadable unreadable _, fun declaration => fits_of_declares⟩
  have given := arguments_of_style flat among
  unfold call begin call
  rw [given]
  exact ⟨rfl, rfl⟩

end StepMatch

def seeingDeclaration : Declaration :=
  ⟨[⟨"thing", .positionalOnly, false⟩, ⟨"mood", .named, true⟩, ⟨"more", .extra, false⟩],
    List.pairwise_singleton _ _⟩

def seeingBody : Callable :=
  .script "see" seeingDeclaration.signature false false 0 [.log .arguments]

def seeingRegistry : Registry where
  definitions := [⟨"given", .placeholders
    ⟨"I see \x7bword\x7d", .tolerant, [.literal "I see ".toList, .placeholder ⟨.word, false⟩]⟩,
    seeingBody, ""⟩]
  whitespace := .text "tolerant"

def seeingStep : FeatureStep :=
  ⟨"Given", "I see fish", none, some "under the boat"⟩

/-- The texts that are the parameters of a step, if these are two texts. -/
def seenTexts : Except Fault ResolvedStep → Option (String × String)
  | .ok ⟨_, _, _, _, [.text thing, .text note]⟩ => some (thing, note)
  | _ => none

/-- The text under the step has no place in the body. -/
theorem step_arguments_fit_seeing : ∃ resolved,
    ResolvedStep.resolve seeingRegistry seeingStep = .ok resolved ∧
    resolved.found.params = [.text "fish", .text "under the boat"] ∧
    ∀ style ∈ resolved.found.styles,
      resolved.found.call style = Program.call .step seeingBody [.text "fish"] := by
  obtain ⟨resolved, known, params⟩ : ∃ resolved,
      ResolvedStep.resolve seeingRegistry seeingStep = .ok resolved ∧
      resolved.found.params = [.text "fish", .text "under the boat"] := by
    have read : seenTexts (ResolvedStep.resolve seeingRegistry seeingStep) =
        some ("fish", "under the boat") := by decide +kernel
    unfold seenTexts at read
    split at read
    · next known =>
      cases read
      exact ⟨_, known, rfl⟩
    · simp at read
  have body : resolved.found.definition.callable = seeingBody := by
    obtain ⟨-, -, _, first, -⟩ := ResolvedStep.resolve_eq_ok.1 known
    obtain ⟨earlier, later, same, -⟩ := first.placed
    have member : resolved.found.definition ∈ seeingRegistry.definitions := by simp [same]
    exact congrArg StepDefinition.callable (List.mem_singleton.1 member)
  obtain ⟨args, styles, -, fits⟩ := StepMatch.step_arguments_fit known
  have declares : resolved.found.definition.callable.Declares seeingDeclaration :=
    body ▸ .script "see" seeingDeclaration false 0 [.log .arguments]
  have given := (fits seeingDeclaration declares).given
  rw [params] at given
  refine ⟨resolved, known, params, fun style among => ?_⟩
  rw [(styles style among).1, body, given]
  rfl

end FeatureRunner
