import FeatureRunner.Proofs.Pattern.Division

/-!
What it means that a step text matches a pattern with placeholders: it splits along the pattern,
and its parameters are the values of what the placeholders take in the longest split.
-/

namespace FeatureRunner
open FeatureRunner.Text FeatureRunner.Regex

theorem NoShorter.refl (helds : List (List Char)) : NoShorter helds helds := by
  induction helds with
  | nil => trivial
  | cons held helds ih => exact .inr ⟨rfl, ih⟩

theorem Splits.length {policy : WhitespacePolicy} {literal text : List Char}
    {slots : List (Placeholder × List Char)} {helds : List (List Char)}
    (split : Splits policy literal slots text helds) : helds.length = slots.length := by
  induction split with
  | last => rfl
  | slot _ _ _ ih => simp [ih]

theorem Regex.Captures.get?_holding (captures : Captures) (index other : Nat)
    (helds : List (List Char)) : (holding index helds captures).get? other =
      if index ≤ other then (helds[other - index]?).or (captures.get? other)
      else captures.get? other := by
  induction helds generalizing index captures with
  | nil => simp [holding]
  | cons held helds ih =>
    have first : get? ((index, held) :: captures) other =
        if index = other then some held else captures.get? other := by
      by_cases same : index = other <;> simp [get?, same]
    rw [holding, ih, first]
    rcases Nat.lt_trichotomy index other with below | rfl | above
    · have step : other - index = other - (index + 1) + 1 := by omega
      rw [if_pos (Nat.succ_le_of_lt below), if_neg (Nat.ne_of_lt below), if_pos (Nat.le_of_lt below),
        step, List.getElem?_cons_succ]
    · rw [if_neg (Nat.not_succ_le_self index), if_pos rfl, if_pos (Nat.le_refl index), Nat.sub_self]
      rfl
    · rw [if_neg (by omega), if_neg (by omega), if_neg (by omega)]

theorem Regex.Captures.groups_holding (helds : List (List Char)) :
    (holding 1 helds []).groups helds.length = helds.map some := by
  unfold groups
  refine List.ext_getElem (by simp) fun n bound _ => ?_
  have inside : n < helds.length := by simpa using bound
  simp [get?_holding, inside]

theorem PlaceholderPattern.coerceGroups_some (slots : List Placeholder) (helds : List (List Char)) :
    coerceGroups slots (helds.map some) =
      (slots.zip helds).mapM fun (slot, held) => coerce slot.kind held := by
  induction slots generalizing helds with
  | nil => rfl
  | cons slot slots ih =>
    cases helds with
    | nil => rfl
    | cons held helds =>
      rw [List.zip_cons_cons, List.mapM_cons, List.map_cons, coerceGroups, ih]

theorem PlaceholderPattern.placeholders_interleave {pattern : PlaceholderPattern}
    {literal : List Char} {slots : List (Placeholder × List Char)}
    (parts : pattern.parts = PatternPart.interleave literal slots) :
    pattern.placeholders = slots.map Prod.fst := by
  unfold placeholders
  rw [parts, PatternPart.interleave]
  induction slots generalizing pattern with
  | nil => rfl
  | cons head slots ih => simpa using @ih { pattern with parts := _ } rfl

/-- An expression matches a whole text by its first way to the end of it. -/
theorem fullMatch?_pattern (policy : WhitespacePolicy) (literal : List Char)
    (slots : List (Placeholder × List Char)) (text : List Char) :
    ((Fragment.ofParts policy 1 (PatternPart.interleave literal slots)).regex.fullMatch? false text =
        none ∧ ∀ helds, ¬Splits policy literal slots text helds) ∨
      ∃ helds, Longest policy literal slots text helds ∧
        (Fragment.ofParts policy 1 (PatternPart.interleave literal slots)).regex.fullMatch? false
          text = some (Captures.holding 1 helds []) := by
  obtain ⟨splits, eq, ordered, member⟩ := ways_pattern policy literal slots 1 ⟨0, text, []⟩
  unfold fullMatch?
  rw [matchFrom_follows, eq, List.findSome?_map]
  have whole (helds : List (List Char)) : Splits policy literal slots text helds ↔
      (helds, text.length) ∈ splits := by
    rw [member]
    constructor
    · exact fun split => ⟨text, [], split, (List.append_nil _).symm, rfl⟩
    · rintro ⟨taken, rest, split, rfl, length⟩
      have none : rest = [] := by simpa using length
      rwa [none, List.append_nil]
  have within (helds : List (List Char)) (n : Nat) (split : (helds, n) ∈ splits) :
      n ≤ text.length := by
    obtain ⟨taken, rest, _, rfl, rfl⟩ := (member helds n).1 split
    simp
  generalize found : splits.findSome? _ = result
  cases result with
  | none =>
    refine .inl ⟨rfl, fun helds split => ?_⟩
    have missed := List.findSome?_eq_none_iff.1 found _ ((whole helds).1 split)
    simp [Cursor.advance] at missed
  | some captures =>
    obtain ⟨earlier, ⟨helds, n⟩, later, rfl, reached, missed⟩ := List.findSome?_eq_some_iff.1 found
    have here : (helds, n) ∈ earlier ++ (helds, n) :: later := by simp
    obtain ⟨last, rfl⟩ : text.length ≤ n ∧ Captures.holding 1 helds [] = captures := by
      simpa [Cursor.advance] using reached
    obtain rfl := Nat.le_antisymm last (within helds n here)
    refine .inr ⟨helds, ⟨(whole helds).2 here, fun others split => ?_⟩, rfl⟩
    rcases List.mem_append.1 ((whole others).1 split) with before | behind
    · have passed := missed _ before
      simp [Cursor.advance] at passed
    · rcases List.mem_cons.1 behind with same | behind
      · exact (Prod.mk.inj same).1 ▸ NoShorter.refl others
      · exact (List.pairwise_cons.1 (List.pairwise_append.1 ordered).2.1).1 _ behind

/-- A text that matches has a text in every group, and these are what is coerced. -/
theorem PlaceholderPattern.match?_captures {pattern : PlaceholderPattern} {literal : List Char}
    {slots : List (Placeholder × List Char)}
    (parts : pattern.parts = PatternPart.interleave literal slots) (text : String) :
    (pattern.fragment.regex.fullMatch? false text.toList = none ∧ pattern.match? text = .ok none ∧
        ∀ helds, ¬Splits pattern.policy literal slots text.toList helds) ∨
      ∃ captures helds, pattern.fragment.regex.fullMatch? false text.toList = some captures ∧
        captures.groups slots.length = helds.map some ∧
        Longest pattern.policy literal slots text.toList helds ∧
        pattern.match? text = some <$> (slots.zip helds).mapM fun (slot, held) =>
          coerce slot.1.kind held := by
  unfold match? fragment
  rw [parts, placeholders_interleave parts, List.length_map]
  rcases fullMatch?_pattern pattern.policy literal slots text.toList with
    ⟨missed, unsplit⟩ | ⟨helds, longest, found⟩
  · exact .inl ⟨missed, by rw [missed], unsplit⟩
  · have groups := Captures.groups_holding helds
    rw [longest.1.length] at groups
    refine .inr ⟨_, helds, found, groups, longest, ?_⟩
    rw [found]
    dsimp only
    rw [groups, coerceGroups_some, List.zip_map_left, List.mapM_map]
    rfl

theorem PlaceholderPattern.match?_interleave {pattern : PlaceholderPattern} {literal : List Char}
    {slots : List (Placeholder × List Char)}
    (parts : pattern.parts = PatternPart.interleave literal slots) (text : String) :
    (pattern.match? text = .ok none ∧
        ∀ helds, ¬Splits pattern.policy literal slots text.toList helds) ∨
      ∃ helds, Longest pattern.policy literal slots text.toList helds ∧
        pattern.match? text = some <$> (slots.zip helds).mapM fun (slot, held) =>
          coerce slot.1.kind held := by
  rcases match?_captures parts text with ⟨-, missed, unsplit⟩ | ⟨-, helds, -, -, longest, matched⟩
  · exact .inl ⟨missed, unsplit⟩
  · exact .inr ⟨helds, longest, matched⟩

theorem PlaceholderPattern.match?_ne_none {pattern : PlaceholderPattern} {literal : List Char}
    {slots : List (Placeholder × List Char)} {text : String}
    (parts : pattern.parts = PatternPart.interleave literal slots) :
    pattern.match? text ≠ .ok none ↔
      ∃ helds, Splits pattern.policy literal slots text.toList helds := by
  rcases match?_interleave parts text with ⟨missed, unsplit⟩ | ⟨helds, longest, matched⟩
  · constructor
    · exact fun matched => absurd missed matched
    · rintro ⟨helds, split⟩
      exact absurd split (unsplit helds)
  · have given (answer : Except Fault (List Value)) : some <$> answer ≠ .ok none := by
      cases answer <;> nofun
    rw [matched]
    exact ⟨fun _ => ⟨helds, longest.1⟩, fun _ => given _⟩

/-! ## What the parameters are -/

/-- The only fault is a whole number with too many digits. -/
theorem PlaceholderPattern.coerce_error {kind : PlaceholderKind} {held : List Char} {fault : Fault}
    (failed : coerce kind held = .error fault) : kind = .int ∧
      digitBound < Number.digitCount held ∧ fault = .digitLimit (Number.digitCount held) := by
  cases kind with
  | word => cases failed
  | int =>
    unfold coerce at failed
    dsimp only at failed
    split at failed
    case isTrue long =>
      cases failed
      exact ⟨rfl, long, rfl⟩
    case isFalse => cases failed
  | float => cases failed

theorem takeSign_append {sign digits : List Char} (signed : Sign sign)
    (unsigned : ∀ c, digits.head? = some c → c ≠ '-' ∧ c ≠ '+') :
    Number.takeSign (sign ++ digits) = (decide (sign = ['-']), digits) := by
  cases signed with
  | none =>
    unfold Number.takeSign
    cases digits with
    | nil => rfl
    | cons c digits =>
      have other := unsigned c rfl
      split <;> simp_all
  | minus => rfl
  | plus => rfl

theorem OneOrMore.unsigned {digits : List Char} (has : OneOrMore isDecimalDigit digits) (c : Char)
    (first : digits.head? = some c) : c ≠ '-' ∧ c ≠ '+' :=
  unsigned_of_digit (has.2 c (List.mem_of_head? first))

theorem PlaceholderPattern.coerce_int {sign digits : List Char} (signed : Sign sign)
    (has : OneOrMore isDecimalDigit digits) : coerce .int (sign ++ digits) =
      if digitBound < digits.length then .error (.digitLimit digits.length)
      else .ok (.int (if sign = ['-'] then -(Number.digitsValue digits : Int)
        else Number.digitsValue digits)) := by
  have reading := takeSign_append signed has.unsigned
  have some : digits.isEmpty = false := by simpa using has.1
  have all : digits.all isDecimalDigit := List.all_eq_true.2 has.2
  unfold coerce Number.digitCount Number.readInt?
  simp only [reading, some, all, Bool.false_or, Bool.not_true, Bool.false_eq_true, if_false,
    decide_eq_true_eq, Option.getD_some]

theorem PlaceholderPattern.coerce_float {sign number whole fraction : List Char}
    (signed : Sign sign) (has : OneOrMore isDecimalDigit (whole ++ fraction))
    (shape : number = whole ++ '.' :: fraction ∨ fraction = [] ∧ number = whole) :
    coerce .float (sign ++ number) = .ok (.float (.ofDecimal (decide (sign = ['-']))
      (Number.digitsValue (whole ++ fraction)) (-fraction.length))) := by
  have digits {c : Char} (member : c ∈ whole ++ fraction) : isDecimalDigit c := has.2 c member
  have unsigned (c : Char) (first : number.head? = some c) : c ≠ '-' ∧ c ≠ '+' := by
    rcases shape with rfl | ⟨rfl, rfl⟩
    · cases whole with
      | nil =>
        cases first
        decide
      | cons d whole =>
        cases first
        exact unsigned_of_digit (digits (by simp))
    · exact unsigned_of_digit (digits (by simp [List.mem_of_head? first]))
  have some : (whole.isEmpty && fraction.isEmpty) = false := by
    cases whole with
    | nil =>
      cases fraction with
      | nil => exact absurd rfl has.1
      | cons => rfl
    | cons => rfl
  have fraction_digits := takeWhile_run [] (fun c member => digits
    (List.mem_append_right whole member)) nofun
  rw [List.append_nil] at fraction_digits
  unfold coerce Number.readDecimal?
  rw [takeSign_append signed unsigned]
  dsimp only
  rcases shape with rfl | ⟨rfl, rfl⟩
  · obtain ⟨taken, dropped⟩ := takeWhile_run ('.' :: fraction)
      (fun c member => digits (List.mem_append_left fraction member)) (by rintro _ ⟨⟩; decide)
    simp only [taken, dropped, fraction_digits, some]
    simp [Number.readExponent?]
  · obtain ⟨taken, dropped⟩ := takeWhile_run []
      (fun c member => digits (List.mem_append_left [] member)) nofun
    rw [List.append_nil] at taken dropped
    simp only [taken, dropped, some]
    simp [Number.readExponent?]

/-- A text that compiles becomes a pattern of the parts into which it is divided. -/
theorem StepPattern.compile_text {source : String} {whitespace : Value} {pattern : StepPattern}
    (compiled : compile (.text source) whitespace = .ok pattern) : ∃ policy literal slots,
      WhitespacePolicy.ofValue? whitespace = some policy ∧ Divided source.toList literal slots ∧
      pattern = .placeholders ⟨source, policy, PatternPart.interleave literal slots⟩ := by
  unfold compile at compiled
  dsimp only at compiled
  split at compiled
  · cases compiled
  case h_2 policy known =>
    cases resolved : PatternPart.ofPattern source with
    | error fault =>
      rw [resolved] at compiled
      cases compiled
    | ok parts =>
      rw [resolved] at compiled
      cases compiled
      obtain ⟨literal, slots, divided, rfl⟩ := PatternPart.ofPattern_eq_ok.1 resolved
      exact ⟨policy, literal, slots, known, divided, rfl⟩

theorem StepPattern.compile_named (source : String) (policy : WhitespacePolicy) :
    compile (.text source) (.text policy.name) =
      (PatternPart.ofPattern source).map fun parts => .placeholders ⟨source, policy, parts⟩ := by
  have known : WhitespacePolicy.ofValue? (.text policy.name) = some policy := by cases policy <;> rfl
  unfold compile
  simp only [known]
  cases PatternPart.ofPattern source <;> rfl

theorem StepPattern.compile_divided {source : String} {literal : List Char}
    {slots : List (Placeholder × List Char)} (divided : Divided source.toList literal slots)
    (policy : WhitespacePolicy) : compile (.text source) (.text policy.name) =
      .ok (.placeholders ⟨source, policy, PatternPart.interleave literal slots⟩) := by
  rw [compile_named, PatternPart.ofPattern_eq_ok.2 ⟨literal, slots, divided, rfl⟩]
  rfl

/-- A step text matches a pattern exactly if it splits along the literals and the placeholders
into which the pattern is divided, and the parameters are the values of what the placeholders take
in the longest split. -/
theorem match_of_longest_split {source : String} {whitespace : Value} {compiled : StepPattern}
    (accepted : StepPattern.compile (.text source) whitespace = .ok compiled) :
    ∃ policy, WhitespacePolicy.ofValue? whitespace = some policy ∧
      (∃ literal slots, Divided source.toList literal slots) ∧
      ∀ literal slots, Divided source.toList literal slots → ∀ text : String,
        (compiled.match? text = .ok none ∧
          ∀ helds, ¬Splits policy literal slots text.toList helds) ∨
        ∃ helds, Longest policy literal slots text.toList helds ∧
          compiled.match? text = some <$> (slots.zip helds).mapM fun (slot, held) =>
            PlaceholderPattern.coerce slot.1.kind held := by
  unfold StepPattern.compile at accepted
  dsimp only at accepted
  split at accepted
  · cases accepted
  case h_2 policy known =>
    cases resolved : PatternPart.ofPattern source with
    | error fault => rw [resolved] at accepted; cases accepted
    | ok parts =>
      rw [resolved] at accepted
      cases accepted
      obtain ⟨literal, slots, divided, rfl⟩ := PatternPart.ofPattern_eq_ok.1 resolved
      refine ⟨policy, known, ⟨literal, slots, divided⟩, fun literal' slots' divided' text => ?_⟩
      obtain ⟨rfl, rfl⟩ := divided.unique divided'
      exact PlaceholderPattern.match?_interleave rfl text

theorem match_of_longest_split_amount :
    ∃ compiled policy, StepPattern.compile (.text "pay $\x7bint\x7d") (.text "tolerant") = .ok compiled ∧
      ∃ literal slots, Divided "pay $\x7bint\x7d".toList literal slots ∧ ∀ text : String,
        (compiled.match? text = .ok none ∧
          ∀ helds, ¬Splits policy literal slots text.toList helds) ∨
        ∃ helds, Longest policy literal slots text.toList helds ∧
          compiled.match? text = some <$> (slots.zip helds).mapM fun (slot, held) =>
            PlaceholderPattern.coerce slot.1.kind held := by
  obtain ⟨compiled, accepted⟩ : ∃ compiled,
      StepPattern.compile (.text "pay $\x7bint\x7d") (.text "tolerant") = .ok compiled := ⟨_, rfl⟩
  obtain ⟨policy, _, ⟨literal, slots, divided⟩, matches_of⟩ := match_of_longest_split accepted
  exact ⟨compiled, policy, accepted, literal, slots, divided, matches_of literal slots divided⟩

end FeatureRunner
