import FeatureRunner.Proofs.Pattern.Match
import FeatureRunner.Registry
import Mathlib.Data.List.Forall2

/-!
Which definition a step text belongs to: the first in the order of registration whose pattern it
matches. What is registered later changes nothing for a text that has a definition already.
-/

namespace FeatureRunner
open FeatureRunner.Text

namespace Registry

/-- A definition with the parameters that it gives a text; none of those before it matches. -/
structure First (registry : Registry) (text : String) (found : StepMatch) : Prop where
  gives : found.definition.match? text = .ok (some found.params)
  placed : ∃ earlier later, registry.definitions = earlier ++ found.definition :: later ∧
    earlier.length = found.index ∧ ∀ definition ∈ earlier, definition.match? text = .ok none

/-- A text that matches some definition, with no fault on the way. -/
def Knows (registry : Registry) (text : String) : Prop :=
  ∃ found, registry.First text found

def Misses (registry : Registry) (text : String) : Prop :=
  ∀ definition ∈ registry.definitions, definition.match? text = .ok none

theorem firstMatch_cons (text : String) (index : Nat) (definition : StepDefinition)
    (rest : List StepDefinition) : firstMatch text index (definition :: rest) =
      match definition.match? text with
      | .ok (some params) => .ok (some ⟨index, definition, params⟩)
      | .ok none => firstMatch text (index + 1) rest
      | .error fault => .error fault := by
  rw [firstMatch]
  cases definition.match? text with
  | error fault => rfl
  | ok params => cases params <;> rfl

theorem firstMatch_eq_some {text : String} {index : Nat} {definitions : List StepDefinition}
    {found : StepMatch} : firstMatch text index definitions = .ok (some found) ↔
      found.definition.match? text = .ok (some found.params) ∧
        ∃ earlier later, definitions = earlier ++ found.definition :: later ∧
          index + earlier.length = found.index ∧
          ∀ definition ∈ earlier, definition.match? text = .ok none := by
  induction definitions generalizing index with
  | nil =>
    refine ⟨nofun, ?_⟩
    rintro ⟨-, earlier, later, same, -⟩
    simp at same
  | cons definition rest ih =>
    rw [firstMatch_cons]
    constructor
    · intro matched
      split at matched
      case h_1 params here =>
        cases matched
        exact ⟨here, [], rest, rfl, rfl, nofun⟩
      case h_2 missed =>
        obtain ⟨gives, earlier, later, rfl, place, misses⟩ := ih.1 matched
        refine ⟨gives, definition :: earlier, later, rfl, ?_, List.forall_mem_cons.2 ⟨missed, misses⟩⟩
        rw [List.length_cons]
        omega
      case h_3 => cases matched
    · rintro ⟨gives, earlier, later, same, place, misses⟩
      cases earlier with
      | nil =>
        obtain ⟨rfl, rfl⟩ := List.cons.inj same
        rw [gives]
        cases found
        cases place
        rfl
      | cons first earlier =>
        obtain ⟨rfl, rfl⟩ := List.cons.inj same
        obtain ⟨missed, misses⟩ := List.forall_mem_cons.1 misses
        rw [missed]
        refine ih.2 ⟨gives, earlier, later, rfl, ?_, misses⟩
        rw [List.length_cons] at place
        omega

theorem firstMatch_eq_none {text : String} {index : Nat} {definitions : List StepDefinition} :
    firstMatch text index definitions = .ok none ↔
      ∀ definition ∈ definitions, definition.match? text = .ok none := by
  induction definitions generalizing index with
  | nil => exact ⟨fun _ => nofun, fun _ => rfl⟩
  | cons definition rest ih =>
    rw [firstMatch_cons, List.forall_mem_cons]
    cases definition.match? text with
    | error fault => simp
    | ok params => cases params <;> simp [ih]

variable {registry : Registry} {text : String} {found : StepMatch}

theorem find?_eq_some : registry.find? text = .ok (some found) ↔ registry.First text found := by
  unfold find?
  rw [firstMatch_eq_some]
  simp only [Nat.zero_add]
  exact ⟨fun ⟨gives, placed⟩ => ⟨gives, placed⟩, fun ⟨gives, placed⟩ => ⟨gives, placed⟩⟩

theorem find?_eq_none : registry.find? text = .ok none ↔ registry.Misses text :=
  firstMatch_eq_none

theorem resolve_eq (registry : Registry) (text : String) : registry.resolve text =
    match registry.find? text with
    | .ok (some found) => .ok found
    | .ok none => .error (.noMatch text)
    | .error fault => .error fault := by
  unfold resolve
  cases registry.find? text with
  | error fault => rfl
  | ok found => cases found <;> rfl

theorem resolve_eq_ok : registry.resolve text = .ok found ↔ registry.First text found := by
  rw [← find?_eq_some, resolve_eq]
  cases registry.find? text with
  | error fault => simp
  | ok found => cases found <;> simp

theorem resolve_of_misses (misses : registry.Misses text) :
    registry.resolve text = .error (.noMatch text) := by
  rw [resolve_eq, find?_eq_none.2 misses]

theorem First.grow {grown : Registry} {more : List StepDefinition} (first : registry.First text found)
    (further : grown.definitions = registry.definitions ++ more) : grown.First text found := by
  obtain ⟨gives, earlier, later, same, place, misses⟩ := first
  exact ⟨gives, earlier, later ++ more, by rw [further, same]; simp, place, misses⟩

end Registry

/-! ## Texts that give no fault -/

/-- A text without a run of more digits than can be read as a whole number. -/
def DigitsBounded (text : List Char) : Prop :=
  ∀ run, run <:+: text → (∀ c ∈ run, isDecimalDigit c) → run.length ≤ digitBound

/-- What the placeholders take are pieces of the text, each of the form of its kind. -/
theorem Splits.takes {policy : WhitespacePolicy} {literal text : List Char}
    {slots : List (Placeholder × List Char)} {helds : List (List Char)}
    (split : Splits policy literal slots text helds) :
    List.Forall₂ (fun slot held => slot.1.kind.Takes held ∧ held <:+: text) slots helds := by
  induction split with
  | last => exact .nil
  | @slot _ before _ held text slot _ _ _ takes _ ih =>
    have behind : text <:+: before ++ (slot.mark ++ (held ++ text)) :=
      ⟨before ++ (slot.mark ++ held), [], by simp⟩
    refine .cons ⟨takes, before ++ slot.mark, text, by simp⟩ (ih.imp ?_)
    exact fun _ _ ⟨takes, inside⟩ => ⟨takes, inside.trans behind⟩

theorem PlaceholderPattern.coerce_ok {kind : PlaceholderKind} {held text : List Char}
    (takes : kind.Takes held) (inside : held <:+: text) (bounded : DigitsBounded text) :
    ∃ value, coerce kind held = .ok value := by
  cases kind with
  | word => exact ⟨_, rfl⟩
  | int =>
    obtain ⟨sign, digits, signed, has, rfl⟩ := takes
    have few := bounded digits ((List.suffix_append sign digits).isInfix.trans inside) has.2
    rw [coerce_int signed has, if_neg (Nat.not_lt.2 few)]
    exact ⟨_, rfl⟩
  | float => exact ⟨_, rfl⟩

/-- A pattern that has been compiled gives a bounded text parameters or nothing, and no fault. -/
theorem StepPattern.match?_ok {written whitespace : Value} {pattern : StepPattern} {text : String}
    (compiled : compile written whitespace = .ok pattern) (bounded : DigitsBounded text.toList) :
    ∃ params, pattern.match? text = .ok params := by
  cases written with
  | text source =>
    obtain ⟨policy, literal, slots, -, -, rfl⟩ := compile_text compiled
    let pattern : PlaceholderPattern := ⟨source, policy, PatternPart.interleave literal slots⟩
    have parts : pattern.parts = PatternPart.interleave literal slots := rfl
    rcases PlaceholderPattern.match?_interleave parts text with ⟨missed, -⟩ | ⟨helds, longest, matched⟩
    · exact ⟨none, missed⟩
    · cases all : (slots.zip helds).mapM fun taken =>
          PlaceholderPattern.coerce taken.1.1.kind taken.2 with
      | ok params => exact ⟨some params, matched.trans (congrArg (some <$> ·) all)⟩
      | error fault =>
        obtain ⟨⟨slot, held⟩, member, failed⟩ := mapM_error all
        obtain ⟨takes, inside⟩ := List.forall₂_zip longest.1.takes member
        obtain ⟨value, read⟩ := PlaceholderPattern.coerce_ok takes inside bounded
        cases failed.symm.trans read
  | regex expression =>
    unfold compile at compiled
    dsimp only at compiled
    split at compiled
    · cases compiled
      unfold match?
      dsimp only
      split
      · exact ⟨none, rfl⟩
      · exact ⟨_, rfl⟩
    · cases compiled
  | _ => cases compiled

namespace Registry

def Compiled (registry : Registry) : Prop :=
  ∀ definition ∈ registry.definitions, ∃ written whitespace,
    StepPattern.compile written whitespace = .ok definition.pattern

theorem Compiled.knows_or_misses {registry : Registry} {text : String} (compiled : registry.Compiled)
    (bounded : DigitsBounded text.toList) : registry.Knows text ∨ registry.Misses text := by
  have searched (definitions : List StepDefinition) (index : Nat)
      (compiled : ∀ definition ∈ definitions, ∃ written whitespace,
        StepPattern.compile written whitespace = .ok definition.pattern) :
      ∃ found, firstMatch text index definitions = .ok found := by
    induction definitions generalizing index with
    | nil => exact ⟨none, rfl⟩
    | cons definition rest ih =>
      obtain ⟨⟨written, whitespace, here⟩, compiled⟩ := List.forall_mem_cons.1 compiled
      obtain ⟨params, matched⟩ := StepPattern.match?_ok here bounded
      rw [firstMatch_cons, StepDefinition.match?, matched]
      cases params with
      | none => exact ih (index + 1) compiled
      | some params => exact ⟨_, rfl⟩
  obtain ⟨found, known⟩ := searched registry.definitions 0 compiled
  cases found with
  | none => exact .inr (find?_eq_none.1 known)
  | some found => exact .inl ⟨found, find?_eq_some.1 known⟩

end Registry

end FeatureRunner
