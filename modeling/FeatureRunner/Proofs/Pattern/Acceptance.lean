import FeatureRunner.Proofs.Pattern.Policies
import FeatureRunner.Proofs.Regex.Written

/-!
Which patterns compile, and what matching them can answer. The expression that a pattern is turned
into is read from its text with one group for each token, so that a text that matches has a value
for each of them; the only fault is a whole number with too many digits.
-/

namespace FeatureRunner
open FeatureRunner.Text FeatureRunner.Regex

/-! ## The texts of fragments -/

namespace Fragment

/-- A fragment whose text is read as its expression. -/
def Sound (fragment : Fragment) (groups opened : Nat) : Prop :=
  Written groups fragment.source fragment.regex opened

theorem nothing_sound (groups : Nat) : nothing.Sound groups 0 :=
  .nothing groups

theorem Sound.append {first second : Fragment} {groups opened opened' : Nat}
    (sound : first.Sound groups opened) (sound' : second.Sound (groups + opened) opened') :
    (first.append second).Sound groups (opened + opened') :=
  Written.append sound sound'

theorem char_sound (c : Char) (groups : Nat) : (char c).Sound groups 0 := by
  have specials : specialChars.all fun c => shorthand? c = none ∧ escapedChar c = c := by decide
  have marks : ['|', ')', '*', '+', '?', '\x7b', '.', '^', '$', '[', '(', '\\'].all
    specialChars.contains := by decide
  unfold Sound char
  by_cases special : c ∈ specialChars
  · rw [if_pos (List.contains_iff_mem.2 special)]
    obtain ⟨plain, same⟩ := of_decide_eq_true (List.all_eq_true.1 specials c special)
    exact .escaped plain same groups
  · rw [if_neg (mt List.contains_iff_mem.1 special)]
    exact .plain (fun mark => special (List.contains_iff_mem.1 (List.all_eq_true.1 marks c mark))) groups

theorem concat_sound {fragments : List Fragment} {groups : Nat}
    (sound : ∀ fragment ∈ fragments, fragment.Sound groups 0) : (concat fragments).Sound groups 0 := by
  induction fragments with
  | nil => exact nothing_sound groups
  | cons fragment fragments ih =>
    obtain ⟨first, others⟩ := List.forall_mem_cons.1 sound
    exact first.append (ih others)

theorem verbatim_sound (text : List Char) (groups : Nat) : (verbatim text).Sound groups 0 := by
  apply concat_sound
  intro fragment member
  obtain ⟨c, -, rfl⟩ := List.mem_map.1 member
  exact char_sound c groups

/-- Literal text opens no group, whatever it holds. -/
theorem literal_sound (policy : WhitespacePolicy) (text : List Char) (groups : Nat) :
    (literal policy text).Sound groups 0 := by
  cases policy with
  | strict => exact verbatim_sound text groups
  | tolerant =>
    apply concat_sound
    intro fragment member
    obtain ⟨run, -, rfl⟩ := List.mem_map.1 member
    by_cases blank : run.all isBlank = true
    · have source : ("\\s+").toList = ['\\', 's', '+'] := by decide
      rw [if_pos blank, Sound, oneOrMore, source]
      exact .repeated_class rfl (fun _ => rfl) groups
    · rw [if_neg blank]
      exact verbatim_sound run groups

theorem sign_written (groups : Nat) : Written groups ['[', '-', '+', ']', '?'] sign 0 := by
  apply Written.of_atom (by decide)
  intro rest calm fuel _
  have marks : repetition? (['?'] ++ rest) = some ((0, some 1), rest) := rfl
  refine ⟨.set false [.range '-' '-', .range '+' '+'], ['?'] ++ rest, sign, ?_,
    calm.repeated_mark _ marks, .refl _⟩
  unfold atom?
  simp [setItems?, setItems?.entry?, setMember?]

theorem digits_written (groups : Nat) : Written groups ['\\', 'd', '+'] (digits 1) 0 :=
  .repeated_class rfl (fun _ => rfl) groups

theorem point_written (groups : Nat) : Written groups ['\\', '.'] (.char '.') 0 :=
  .escaped rfl rfl groups

theorem taken_written (kind : PlaceholderKind) (groups : Nat) :
    Written groups (taken kind).source (taken kind).regex 0 := by
  cases kind with
  | word =>
    have source : (taken .word).source = ['\\', 'S', '+'] := by decide
    rw [source]
    exact .repeated_class rfl (fun _ => rfl) groups
  | int =>
    have source : (taken .int).source = ['[', '-', '+', ']', '?'] ++ ['\\', 'd', '+'] := by decide
    rw [source]
    exact (sign_written groups).append (digits_written groups)
  | float =>
    have source : (taken .float).source = ['[', '-', '+', ']', '?'] ++ ('(' :: '?' :: ':' ::
        (((['\\', 'd', '+'] ++ (['\\', '.'] ++ ['\\', 'd', '*'])) ++ '|' ::
          ((['\\', '.'] ++ ['\\', 'd', '+']) ++ '|' :: ['\\', 'd', '+'])) ++ [')'])) := by decide
    rw [source]
    have fraction : Written groups ['\\', 'd', '*'] (digits 0) 0 :=
      .repeated_class rfl (fun _ => rfl) groups
    have inside := (digits_written groups).append ((point_written groups).append fraction)
    have first := (point_written groups).append (digits_written groups)
    have alternatives := Enclosed.alt inside (Enclosed.alt first (digits_written groups).enclosed)
    exact (sign_written groups).append alternatives.grouped

theorem placeholder_sound (slot : Placeholder) (groups : Nat) :
    (placeholder (groups + 1) slot).Sound groups 1 := by
  have begins : (taken slot.kind).source.head? ≠ some '?' := by
    cases slot.kind <;> decide
  have held : Sound ⟨'(' :: (taken slot.kind).source ++ [')'],
      .group (groups + 1) (taken slot.kind).regex⟩ groups 1 :=
    (taken_written slot.kind (groups + 1)).enclosed.numbered begins
  unfold placeholder
  dsimp only
  split
  · exact (char_sound '$' groups).append held
  · exact held

theorem ofParts_sound (policy : WhitespacePolicy) (literal : List Char)
    (slots : List (Placeholder × List Char)) (groups : Nat) :
    (ofParts policy (groups + 1) (PatternPart.interleave literal slots)).Sound groups slots.length := by
  induction slots generalizing literal groups with
  | nil => exact (literal_sound policy literal groups).append (nothing_sound groups)
  | cons found slots ih =>
    have behind := (placeholder_sound found.1 groups).append (ih found.2 (groups + 1))
    rw [Nat.add_comm 1] at behind
    have whole := (literal_sound policy literal groups).append behind
    rw [Nat.zero_add] at whole
    exact whole

end Fragment

/-- The text of the expression of a pattern is read as that expression, with a group for each
placeholder. -/
theorem PlaceholderPattern.read?_source {pattern : PlaceholderPattern} {literal : List Char}
    {slots : List (Placeholder × List Char)}
    (parts : pattern.parts = PatternPart.interleave literal slots) :
    ∃ expression, Regex.read? (String.ofList pattern.fragment.source) = some (expression, slots.length) ∧
      expression.Alike pattern.fragment.regex := by
  have sound := Fragment.ofParts_sound pattern.policy literal slots 0
  rw [Nat.zero_add, ← parts] at sound
  apply Enclosed.read?
  rw [String.toList_ofList]
  exact Written.enclosed sound

/-! ## What a match answers -/

/-- The values of a kind. -/
inductive PlaceholderKind.Holds : PlaceholderKind → Value → Prop
  | word (text : String) : Holds word (.text text)
  | int (number : Int) : Holds int (.int number)
  | float (number : Number.Binary64) : Holds float (.float number)

/-- The name under which the kind of a token is listed. -/
def Token.name (token : Token) : String :=
  (if token.amount then "money_" else "") ++ String.ofList (strip token.content)

theorem Token.Names.name {token : Token} {slot : Placeholder} (names : token.Names slot) :
    slot.name = token.name := by
  unfold Placeholder.name Token.name
  rw [names.amount, names.named, String.ofList_toList]

theorem names_listed {tokens : List (Token × List Char)} {slots : List (Placeholder × List Char)}
    (names : List.Forall₂ Token.NamesBefore tokens slots) :
    slots.map (·.1.name) = tokens.map (·.1.name) := by
  induction names with
  | nil => rfl
  | cons first _ ih => rw [List.map_cons, List.map_cons, first.1.name, ih]

/-- What a pattern answers on a text that matches, when its tokens have taken the given texts: a
value of its kind for each, or that one of them is a whole number with too many digits. -/
inductive Token.Answer (tokens : List (Token × List Char)) (helds : List (List Char)) :
    Except Fault (Option (List Value)) → Prop
  | params {params : List Value} (typed : List.Forall₂ (fun found value =>
      ∃ kind : PlaceholderKind, strip found.1.content = kind.name.toList ∧ kind.Holds value)
      tokens params) : Answer tokens helds (.ok (some params))
  | digits {found : Token × List Char} {held : List Char} (among : (found, held) ∈ tokens.zip helds)
      (named : strip found.1.content = PlaceholderKind.int.name.toList)
      (long : digitBound < Number.digitCount held) :
      Answer tokens helds (.error (.digitLimit (Number.digitCount held)))

theorem PlaceholderPattern.coerce_holds {kind : PlaceholderKind} {held : List Char} {value : Value}
    (known : coerce kind held = .ok value) : kind.Holds value := by
  cases kind with
  | word =>
    cases known
    exact .word _
  | int =>
    unfold coerce at known
    dsimp only at known
    split at known <;> cases known
    exact .int _
  | float =>
    cases known
    exact .float _

theorem PlaceholderPattern.values_hold {slots : List (Placeholder × List Char)}
    {helds : List (List Char)} {params : List Value} (length : helds.length = slots.length)
    (read : (slots.zip helds).mapM (fun (slot, held) => coerce slot.1.kind held) = .ok params) :
    List.Forall₂ (fun slot value => slot.1.kind.Holds value) slots params := by
  induction slots generalizing helds params with
  | nil =>
    cases read
    exact .nil
  | cons slot slots ih =>
    cases helds with
    | nil => cases length
    | cons held helds =>
      obtain ⟨value, values, first, others, rfl⟩ := mapM_cons_ok read
      exact .cons (coerce_holds first) (ih (Nat.succ.inj length) others)

theorem Token.taken {tokens : List (Token × List Char)} {slots : List (Placeholder × List Char)}
    (names : List.Forall₂ NamesBefore tokens slots) {helds : List (List Char)}
    {slot : Placeholder × List Char} {held : List Char} (among : (slot, held) ∈ slots.zip helds) :
    ∃ found, (found, held) ∈ tokens.zip helds ∧ found.1.Names slot.1 := by
  induction names generalizing helds with
  | nil => cases among
  | cons first _ ih =>
    cases helds with
    | nil => cases among
    | cons other helds =>
      rcases List.mem_cons.1 among with same | among
      · cases same
        exact ⟨_, List.mem_cons_self, first.1⟩
      · obtain ⟨found, member, named⟩ := ih among
        exact ⟨found, List.mem_cons_of_mem _ member, named⟩

theorem Token.answer {tokens : List (Token × List Char)} {slots : List (Placeholder × List Char)}
    {helds : List (List Char)} (names : List.Forall₂ NamesBefore tokens slots)
    (length : helds.length = slots.length) :
    Answer tokens helds (some <$> (slots.zip helds).mapM fun (slot, held) =>
      PlaceholderPattern.coerce slot.1.kind held) := by
  cases read : (slots.zip helds).mapM fun (slot, held) =>
      PlaceholderPattern.coerce slot.1.kind held with
  | ok params =>
    have holds := PlaceholderPattern.values_hold length read
    apply Answer.params
    clear read length
    induction names generalizing params with
    | nil =>
      cases holds
      exact .nil
    | cons first _ ih =>
      cases holds with
      | cons value values => exact .cons ⟨_, first.1.named, value⟩ (ih _ values)
  | error fault =>
    obtain ⟨⟨slot, held⟩, member, failed⟩ := mapM_error read
    obtain ⟨int, long, rfl⟩ := PlaceholderPattern.coerce_error failed
    obtain ⟨found, among, named⟩ := taken names member
    exact .digits among (int ▸ named.named) long

theorem StepPattern.compile_unsupported {source : String} {literal : List Char}
    {tokens : List (Token × List Char)} (scanned : Scanned source.toList literal tokens)
    (unsupported : ∃ found ∈ tokens, found.1.Unsupported) (policy : WhitespacePolicy) :
    ∃ fault, compile (.text source) (.text policy.name) = .error fault ∧
      fault.kind = .patternCompile := by
  rw [compile_named]
  cases answer : PatternPart.ofPattern source with
  | ok parts =>
    obtain ⟨_, slots, divided, -⟩ := PatternPart.ofPattern_eq_ok.1 answer
    obtain ⟨_, scanned', names⟩ := divided_iff.1 divided
    obtain ⟨rfl, rfl⟩ := scanned.unique scanned'
    obtain ⟨found, member, fails⟩ := unsupported
    exact absurd fails (named_iff_supported.1 ⟨slots, names⟩ found member)
  | error fault => exact ⟨fault, rfl, (PatternPart.ofPattern_error scanned answer).2⟩

/-- A pattern is scanned in one way. If one of its tokens is unsupported, compiling it is a fault of
that kind. Otherwise it compiles, its kinds are those of the tokens in order, and its expression is
read from its text with a group for each of them. Every group of a match holds a text, and a match
gives a value of its kind for each token, but for whole numbers with too many digits. -/
theorem compiled_or_unsupported (source : String) (policy : WhitespacePolicy) :
    ∃ literal tokens,
      (∀ literal' tokens', Scanned source.toList literal' tokens' ↔
        literal' = literal ∧ tokens' = tokens) ∧
      ((∃ found ∈ tokens, found.1.Unsupported) ∧ (∃ fault,
          StepPattern.compile (.text source) (.text policy.name) = .error fault ∧
            fault.kind = .patternCompile) ∨
        (∀ found ∈ tokens, ¬found.1.Unsupported) ∧ ∃ compiled expression,
          StepPattern.compile (.text source) (.text policy.name) = .ok compiled ∧
          compiled.kinds = tokens.map (·.1.name) ∧
          Regex.read? compiled.regexSource = some (expression, tokens.length) ∧
          ∀ text : String,
            expression.fullMatch? false text.toList = none ∧ compiled.match? text = .ok none ∨
            ∃ captures helds, expression.fullMatch? false text.toList = some captures ∧
              captures.groups tokens.length = helds.map some ∧
              Token.Answer tokens helds (compiled.match? text)) := by
  obtain ⟨literal, tokens, scanned, -⟩ := Scanned.of_cut source
  have only : ∀ literal' tokens', Scanned source.toList literal' tokens' ↔
      literal' = literal ∧ tokens' = tokens := by
    intro literal' tokens'
    constructor
    · exact fun scanned' => scanned'.unique scanned
    · rintro ⟨rfl, rfl⟩
      exact scanned
  refine ⟨literal, tokens, only, ?_⟩
  by_cases unsupported : ∃ found ∈ tokens, found.1.Unsupported
  · exact .inl ⟨unsupported, StepPattern.compile_unsupported scanned unsupported policy⟩
  · have supported : ∀ found ∈ tokens, ¬found.1.Unsupported := by simpa using unsupported
    obtain ⟨slots, names⟩ := named_iff_supported.2 supported
    have divided : Divided source.toList literal slots := divided_iff.2 ⟨tokens, scanned, names⟩
    let pattern : PlaceholderPattern := ⟨source, policy, PatternPart.interleave literal slots⟩
    have parts : pattern.parts = PatternPart.interleave literal slots := rfl
    obtain ⟨expression, known, alike⟩ := PlaceholderPattern.read?_source parts
    rw [← names.length_eq] at known
    have kinds : pattern.kinds = tokens.map (·.1.name) := by
      unfold PlaceholderPattern.kinds
      rw [PlaceholderPattern.placeholders_interleave parts, List.map_map]
      exact names_listed names
    refine .inr ⟨supported, .placeholders pattern, expression,
      StepPattern.compile_divided divided policy, kinds, known, fun text => ?_⟩
    rw [alike.fullMatch?_eq, names.length_eq]
    rcases PlaceholderPattern.match?_captures parts text with
      ⟨unmatched, missed, -⟩ | ⟨captures, helds, found, groups, longest, matched⟩
    · exact .inl ⟨unmatched, missed⟩
    · refine .inr ⟨captures, helds, found, groups, ?_⟩
      change Token.Answer tokens helds (pattern.match? text)
      rw [matched]
      exact Token.answer names longest.1.length

end FeatureRunner
