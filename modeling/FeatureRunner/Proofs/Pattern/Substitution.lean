import FeatureRunner.Proofs.Pattern.Match
import Mathlib.Data.List.Forall2
import Mathlib.Data.Nat.Digits.Defs

/-!
Texts that come of a pattern as values are written in place of its placeholders. Where white space
stands between any two placeholders, such a text splits along the pattern in one way only, so that
matching it gives the values back.
-/

namespace FeatureRunner
open FeatureRunner.Text FeatureRunner.Number

/-! ## Written values -/

/-- Digits that spell a number, the last one counting least. -/
def Spells (digits : List Char) (number : Nat) : Prop :=
  digits ≠ [] ∧ ∃ values : List Nat, digits.map digitValue = values.map some ∧
    Nat.ofDigits 10 values.reverse = number

/-- A value of a kind and a text that it may be written as. -/
inductive PlaceholderKind.Writes : PlaceholderKind → List Char → Value → Prop
  | word {text : List Char} (solid : OneOrMore (fun c => !isBlank c) text) :
      Writes word text (.text (String.ofList text))
  | int {sign digits : List Char} {number : Nat} (signed : Sign sign) (spells : Spells digits number)
      (few : digits.length ≤ digitBound) :
      Writes int (sign ++ digits) (.int (if sign = ['-'] then -number else number))
  | whole {sign digits : List Char} {number : Nat} (signed : Sign sign)
      (spells : Spells digits number) :
      Writes float (sign ++ digits) (.float (.ofDecimal (decide (sign = ['-'])) number 0))
  | fraction {sign whole fraction : List Char} {number : Nat} (signed : Sign sign)
      (spells : Spells (whole ++ fraction) number) :
      Writes float (sign ++ (whole ++ '.' :: fraction))
        (.float (.ofDecimal (decide (sign = ['-'])) number (-fraction.length)))

theorem digitsFrom_eq {digits : List Char} {values : List Nat}
    (spelt : digits.map digitValue = values.map some) (value : Nat) :
    digitsFrom value digits = value * 10 ^ digits.length + Nat.ofDigits 10 values.reverse := by
  induction digits generalizing value values with
  | nil =>
    obtain rfl := List.map_eq_nil_iff.1 spelt.symm
    simp [digitsFrom]
  | cons c digits ih =>
    cases values with
    | nil => cases spelt
    | cons first values =>
      obtain ⟨known, spelt⟩ := List.cons.inj spelt
      have length : digits.length = values.length := by simpa using congrArg List.length spelt
      rw [digitsFrom, ih spelt, Nat.ofDigits_reverse_cons, known, length, List.length_cons, length,
        Option.getD_some]
      ring

theorem Spells.value {digits : List Char} {number : Nat} (spells : Spells digits number) :
    digitsValue digits = number := by
  obtain ⟨-, values, spelt, rfl⟩ := spells
  rw [digitsValue, digitsFrom_eq spelt, Nat.zero_mul, Nat.zero_add]

theorem Spells.digits {digits : List Char} {number : Nat} (spells : Spells digits number) :
    OneOrMore isDecimalDigit digits := by
  obtain ⟨some, values, spelt, -⟩ := spells
  refine ⟨some, fun c member => ?_⟩
  obtain ⟨value, -, known⟩ := List.mem_map.1 (spelt ▸ List.mem_map_of_mem member)
  rw [isDecimalDigit, ← known]
  rfl

namespace PlaceholderKind.Writes

variable {kind : PlaceholderKind} {text : List Char} {value : Value}

theorem takes (writes : Writes kind text value) : kind.Takes text := by
  cases writes with
  | word solid => exact solid
  | int signed spells => exact ⟨_, _, signed, spells.digits, rfl⟩
  | whole signed spells =>
    exact ⟨_, _, signed, ⟨_, [], by rw [List.append_nil]; exact spells.digits,
      .inl (List.append_nil _).symm⟩, rfl⟩
  | fraction signed spells => exact ⟨_, _, signed, ⟨_, _, spells.digits, .inr rfl⟩, rfl⟩

theorem coerce_eq (writes : Writes kind text value) :
    PlaceholderPattern.coerce kind text = .ok value := by
  cases writes with
  | word => rfl
  | int signed spells few =>
    rw [PlaceholderPattern.coerce_int signed spells.digits, if_neg (Nat.not_lt.2 few), spells.value]
  | @whole sign digits number signed spells =>
    have digits_of : OneOrMore isDecimalDigit (digits ++ []) := by
      rw [List.append_nil]
      exact spells.digits
    rw [PlaceholderPattern.coerce_float signed digits_of (.inr ⟨rfl, rfl⟩), List.append_nil,
      spells.value]
    rfl
  | fraction signed spells =>
    rw [PlaceholderPattern.coerce_float signed spells.digits (.inl rfl), spells.value]

end PlaceholderKind.Writes

/-! ## White space in literals -/

theorem Loose.refl (text : List Char) : Loose text text := by
  induction text using spaced_induction with
  | nil => exact .nil
  | char c text solid ih => exact .char solid ih
  | blanks run text blank solid ih => exact .blanks blank blank solid ih

theorem WhitespacePolicy.fits_refl (policy : WhitespacePolicy) (text : List Char) :
    policy.Fits text text := by
  cases policy with
  | tolerant => exact Loose.refl text
  | strict => rfl

theorem WhitespacePolicy.Fits.loose {policy : WhitespacePolicy} {text taken : List Char}
    (fits : policy.Fits text taken) : Loose text taken := by
  cases policy with
  | tolerant => exact fits
  | strict => exact fits ▸ Loose.refl text

/-- What fits a literal agrees with it up to the first white space. -/
theorem Loose.front {text taken : List Char} (loose : Loose text taken) :
    (text = taken ∧ ∀ c ∈ text, isBlank c = false) ∨
    ∃ front c c' behind behind', (∀ d ∈ front, isBlank d = false) ∧ isBlank c ∧ isBlank c' ∧
      text = front ++ c :: behind ∧ taken = front ++ c' :: behind' := by
  induction loose with
  | nil => exact .inl ⟨rfl, nofun⟩
  | @char c text taken solid _ ih =>
    rcases ih with ⟨rfl, all⟩ | ⟨front, d, d', behind, behind', all, blank, blank', rfl, rfl⟩
    · exact .inl ⟨rfl, List.forall_mem_cons.2 ⟨solid, all⟩⟩
    · exact .inr ⟨c :: front, d, d', behind, behind', List.forall_mem_cons.2 ⟨solid, all⟩, blank, blank',
        rfl, rfl⟩
  | @blanks run run' text taken blank blank' =>
    cases run with
    | nil => exact absurd rfl blank.1
    | cons c run =>
      cases run' with
      | nil => exact absurd rfl blank'.1
      | cons c' run' =>
        exact .inr ⟨[], c, c', run ++ text, run' ++ taken, nofun, blank.head, blank'.head, rfl, rfl⟩

theorem front_unique {front front' behind behind' : List Char} {c c' : Char}
    (solid : ∀ d ∈ front, isBlank d = false) (solid' : ∀ d ∈ front', isBlank d = false)
    (blank : isBlank c) (blank' : isBlank c')
    (same : front ++ c :: behind = front' ++ c' :: behind') : front = front' := by
  have cut {run rest : List Char} {stop : Char} (solid : ∀ d ∈ run, isBlank d = false)
      (blank : isBlank stop) : (run ++ stop :: rest).takeWhile (fun d => !isBlank d) = run := by
    have inside : ∀ d ∈ run, (!isBlank d) = true := fun d member => by rw [solid d member]; rfl
    have outside : ∀ d, (stop :: rest).head? = some d → (!isBlank d) = false := by
      rintro _ ⟨⟩
      rw [blank]
      rfl
    exact (takeWhile_run (stop :: rest) inside outside).1
  rw [← cut solid blank, same, cut solid' blank']

/-! ## The split of a filled pattern -/

theorem PlaceholderKind.Takes.blankless {kind : PlaceholderKind} {held : List Char}
    (takes : kind.Takes held) : ∀ c ∈ held, isBlank c = false := by
  have signed {sign : List Char} (has : Sign sign) : ∀ c ∈ sign, isBlank c = false := by
    cases has <;> simp <;> decide
  have digits {text : List Char} (has : OneOrMore isDecimalDigit text) :
      ∀ c ∈ text, isBlank c = false := fun c member => not_blank_of_digit (has.2 c member)
  cases kind with
  | word => exact fun c member => by simpa using takes.2 c member
  | int =>
    obtain ⟨sign, text, has, more, rfl⟩ := takes
    exact List.forall_mem_append.2 ⟨signed has, digits more⟩
  | float =>
    obtain ⟨sign, text, has, ⟨whole, fraction, more, rfl | rfl⟩, rfl⟩ := takes
    · exact List.forall_mem_append.2 ⟨signed has, digits more⟩
    · obtain ⟨before, behind⟩ := List.forall_mem_append.1 (digits more)
      exact List.forall_mem_append.2 ⟨signed has, List.forall_mem_append.2
        ⟨before, List.forall_mem_cons.2 ⟨by decide, behind⟩⟩⟩

/-- What a placeholder takes ends where the literal behind it begins, if there is white space in the
literal or nothing behind it. -/
theorem held_unique {kind : PlaceholderKind} {held held' next before rest rest' : List Char}
    (takes : kind.Takes held) (takes' : kind.Takes held') (loose : Loose next before)
    (same : held ++ (next ++ rest) = held' ++ (before ++ rest'))
    (apart : (∃ c ∈ next, isBlank c) ∨ rest = [] ∧ rest' = []) : held = held' := by
  rcases loose.front with ⟨rfl, all⟩ | ⟨front, c, c', behind, behind', all, blank, blank', rfl, rfl⟩
  · rcases apart with ⟨c, member, blank⟩ | ⟨rfl, rfl⟩
    · rw [all c member] at blank
      cases blank
    · exact List.append_cancel_right same
  · have fronts : (held ++ front) ++ c :: (behind ++ rest) =
        (held' ++ front) ++ c' :: (behind' ++ rest') := by simpa using same
    exact List.append_cancel_right (front_unique
      (List.forall_mem_append.2 ⟨takes.blankless, all⟩)
      (List.forall_mem_append.2 ⟨takes'.blankless, all⟩) blank blank' fronts)

/-- What fits a literal ends where something begins that is not white space. -/
theorem WhitespacePolicy.Fits.unique {policy : WhitespacePolicy} {literal before before' tail tail' : List Char}
    (fits : policy.Fits literal before) (fits' : policy.Fits literal before') (solid : Solid tail)
    (solid' : Solid tail') (same : before ++ tail = before' ++ tail') :
    before = before' ∧ tail = tail' := by
  rcases Nat.lt_trichotomy before.length before'.length with shorter | length | longer
  · obtain ⟨c, more, rfl, rfl⟩ := longer_beginning same.symm shorter
    have blank := fits_onward fits fits'
    rw [solid c rfl] at blank
    cases blank
  · exact List.append_inj same length
  · obtain ⟨c, more, rfl, rfl⟩ := longer_beginning same longer
    have blank := fits_onward fits' fits
    rw [solid' c rfl] at blank
    cases blank

/-- A pattern with texts in place of its placeholders. -/
def filled (literal : List Char) :
    List (Placeholder × List Char) → List (List Char) → List Char
  | (slot, next) :: slots, held :: helds =>
    literal ++ (slot.mark ++ (held ++ filled next slots helds))
  | _, _ => literal

/-- White space stands between any two placeholders. -/
def Spaced (slots : List (Placeholder × List Char)) : Prop :=
  ∀ slot ∈ slots.dropLast, ∃ c ∈ slot.2, isBlank c

section Filled

variable {policy : WhitespacePolicy} {literal text : List Char}
  {slots : List (Placeholder × List Char)} {helds others : List (List Char)}

theorem filled_front (literal : List Char) (slots : List (Placeholder × List Char))
    (helds : List (List Char)) :
    ∃ rest, filled literal slots helds = literal ++ rest ∧ (slots = [] → rest = []) := by
  unfold filled
  split
  · exact ⟨_, rfl, nofun⟩
  · exact ⟨[], (List.append_nil _).symm, fun _ => rfl⟩

theorem Splits.front (split : Splits policy literal slots text helds) :
    ∃ before rest, policy.Fits literal before ∧ text = before ++ rest ∧ (slots = [] → rest = []) := by
  cases split with
  | last fits => exact ⟨_, [], fits, (List.append_nil _).symm, fun _ => rfl⟩
  | slot fits => exact ⟨_, _, fits, rfl, nofun⟩

theorem Splits.of_filled
    (takes : List.Forall₂ (fun slot held => slot.1.kind.Takes held) slots helds) :
    Splits policy literal slots (filled literal slots helds) helds := by
  induction takes generalizing literal with
  | nil => exact .last (policy.fits_refl literal)
  | cons takes _ ih => exact .slot (policy.fits_refl literal) takes ih

theorem Placeholder.solid_mark (slot : Placeholder) {held : List Char}
    (takes : slot.kind.Takes held) (rest : List Char) : Solid (slot.mark ++ (held ++ rest)) := by
  obtain ⟨c, tail, same, solid⟩ := slot.solid takes rest
  rw [same]
  rintro _ ⟨⟩
  exact solid

theorem Splits.unique_of_spaced
    (takes : List.Forall₂ (fun slot held => slot.1.kind.Takes held) slots helds)
    (spaced : Spaced slots) (split : Splits policy literal slots (filled literal slots helds) others) :
    others = helds := by
  induction takes generalizing literal others with
  | nil =>
    cases split
    rfl
  | @cons slot held slots helds takes _ ih =>
    obtain ⟨slot, next⟩ := slot
    rw [filled] at split
    generalize whole : literal ++ (slot.mark ++ (held ++ filled next slots helds)) = text at split
    cases split with
    | @slot _ before _ held' text _ _ others fits takes' further =>
      -- From left to right: the literal ends where it does in the text that was filled, and so does
      -- what the placeholder takes.
      obtain ⟨-, behind⟩ := (policy.fits_refl literal).unique fits (slot.solid_mark takes _)
        (slot.solid_mark takes' _) whole
      have same := List.append_cancel_left behind
      obtain ⟨rest, filling, last⟩ := filled_front next slots helds
      obtain ⟨before', rest', fits', splitting, last'⟩ := further.front
      have apart : (∃ c ∈ next, isBlank c) ∨ rest = [] ∧ rest' = [] := by
        cases slots with
        | nil => exact .inr ⟨last rfl, last' rfl⟩
        | cons following slots => exact .inl (spaced (slot, next) (by simp))
      obtain rfl := held_unique takes takes' fits'.loose (by rwa [← filling, ← splitting]) apart
      obtain rfl := List.append_cancel_left same
      rw [ih (fun other member => spaced other ?_) further]
      cases slots with
      | nil => cases member
      | cons following slots => exact List.mem_cons_of_mem _ member

end Filled

theorem coerce_written {slots : List (Placeholder × List Char)} {values : List (List Char × Value)}
    (writes : List.Forall₂ (fun slot value => slot.1.kind.Writes value.1 value.2) slots values) :
    (slots.zip (values.map Prod.fst)).mapM (fun (slot, held) =>
      PlaceholderPattern.coerce slot.1.kind held) = .ok (values.map Prod.snd) := by
  refine mapM_ok_iff.2 ?_
  induction writes with
  | nil => exact .nil
  | cons writes _ ih => exact .cons writes.coerce_eq ih

/-- Where white space stands between any two placeholders of a pattern, the values that are written
in their places are its parameters, whatever the literals hold. -/
theorem match_of_filled {source : String} {whitespace : Value} {compiled : StepPattern}
    (accepted : StepPattern.compile (.text source) whitespace = .ok compiled) :
    (∃ literal slots, Divided source.toList literal slots) ∧
    ∀ literal slots, Divided source.toList literal slots → Spaced slots →
      ∀ values : List (List Char × Value),
        List.Forall₂ (fun slot value => slot.1.kind.Writes value.1 value.2) slots values →
          compiled.match? (String.ofList (filled literal slots (values.map Prod.fst))) =
            .ok (some (values.map Prod.snd)) := by
  obtain ⟨policy, literal, slots, -, divided, rfl⟩ := StepPattern.compile_text accepted
  refine ⟨⟨literal, slots, divided⟩, fun literal' slots' divided' spaced values writes => ?_⟩
  obtain ⟨rfl, rfl⟩ := divided.unique divided'
  have takes : List.Forall₂ (fun slot held => slot.1.kind.Takes held) slots (values.map Prod.fst) :=
    List.forall₂_map_right_iff.2 (writes.imp fun _ _ writes => writes.takes)
  let pattern : PlaceholderPattern := ⟨source, policy, PatternPart.interleave literal slots⟩
  have parts : pattern.parts = PatternPart.interleave literal slots := rfl
  have read := coerce_written writes
  rcases PlaceholderPattern.match?_interleave parts
      (String.ofList (filled literal slots (values.map Prod.fst))) with ⟨-, unsplit⟩ | ⟨helds, longest, matched⟩
  · rw [String.toList_ofList] at unsplit
    exact absurd (Splits.of_filled takes) (unsplit _)
  · rw [String.toList_ofList] at longest
    obtain rfl := longest.1.unique_of_spaced takes spaced
    exact matched.trans (by rw [read]; rfl)

theorem match_of_filled_payment : ∃ compiled,
    StepPattern.compile (.text "pay $\x7bint\x7d to \x7bword\x7d (now)") (.text "strict") = .ok compiled ∧
      compiled.match? "pay $-07 to to (now)" = .ok (some [.int (-7), .text "to"]) := by
  have plain {text : List Char} (none : '\x7b' ∉ text) : Tokenless text :=
    fun content _ token => none (token.subset (by simp))
  have bare {text : List Char} (none : '\x7b' ∉ text ∧ '\x7d' ∉ text) : Braceless text :=
    fun c member => ⟨fun same => none.1 (same ▸ member), fun same => none.2 (same ▸ member)⟩
  let amount : Placeholder := ⟨.int, true⟩
  let word : Placeholder := ⟨.word, false⟩
  let rest : List Char := " to ".toList ++ (word.mark ++
    ('\x7b' :: ("word".toList ++ '\x7d' :: " (now)".toList)))
  have last : Divided rest " to ".toList [(word, " (now)".toList)] :=
    .slot (plain (by decide)) (bare (by decide)) (by decide) (by decide) (by decide)
      (.last (plain (by decide)))
  have divided : Divided ("pay ".toList ++ (amount.mark ++
      ('\x7b' :: ("int".toList ++ '\x7d' :: rest)))) "pay ".toList
        [(amount, " to ".toList), (word, " (now)".toList)] :=
    .slot (plain (by decide)) (bare (by decide)) (by decide) (by decide) (by decide) last
  let slots : List (Placeholder × List Char) := [(amount, " to ".toList), (word, " (now)".toList)]
  let values : List (List Char × Value) := [("-07".toList, .int (-7)), ("to".toList, .text "to")]
  have spaced : Spaced slots := by
    intro slot member
    cases List.mem_singleton.1 member
    exact ⟨' ', by decide, by decide⟩
  have writes : List.Forall₂ (fun slot value => slot.1.kind.Writes value.1 value.2) slots values := by
    have spells : Spells "07".toList 7 := ⟨by decide, [0, 7], by decide, by decide⟩
    have solid : OneOrMore (fun c => !isBlank c) "to".toList :=
      ⟨by decide, List.all_eq_true.1 (by decide)⟩
    exact .cons (.int .minus spells (by decide)) (.cons (.word solid) .nil)
  obtain ⟨compiled, accepted⟩ : ∃ compiled, StepPattern.compile
      (.text "pay $\x7bint\x7d to \x7bword\x7d (now)") (.text "strict") = .ok compiled := ⟨_, rfl⟩
  have source : "pay $\x7bint\x7d to \x7bword\x7d (now)".toList = "pay ".toList ++ (amount.mark ++
      ('\x7b' :: ("int".toList ++ '\x7d' :: rest))) := by decide
  have text : String.ofList (filled "pay ".toList slots (values.map Prod.fst)) =
      "pay $-07 to to (now)" := by decide
  exact ⟨compiled, accepted, text ▸ (match_of_filled accepted).2 _ slots (source ▸ divided) spaced values writes⟩

end FeatureRunner
