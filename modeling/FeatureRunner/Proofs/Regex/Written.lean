import FeatureRunner.Proofs.Regex.Ways
import FeatureRunner.Regex.Reader

/-!
How the text of an expression is read. A text is written for an expression if reading it in front of
any other text gives what the expression gives and then what the other text does; such texts can be
written after each other, between bars and between brackets.
-/

namespace FeatureRunner.Regex

/-- Expressions that match in the same ways. -/
def Alike (first second : Regex) : Prop :=
  ∀ ignoreCase, ways ignoreCase first = ways ignoreCase second

namespace Alike

variable {first second third first' second' : Regex}

theorem refl (regex : Regex) : Alike regex regex :=
  fun _ => rfl

theorem trans (same : Alike first second) (same' : Alike second third) : Alike first third :=
  fun ignoreCase => (same ignoreCase).trans (same' ignoreCase)

theorem seq (same : Alike first first') (same' : Alike second second') :
    Alike (.seq first second) (.seq first' second') := by
  intro ignoreCase
  simp only [ways, same ignoreCase, same' ignoreCase]

theorem alt (same : Alike first first') (same' : Alike second second') :
    Alike (.alt first second) (.alt first' second') := by
  intro ignoreCase
  simp only [ways, same ignoreCase, same' ignoreCase]

theorem group (same : Alike first second) (index : Nat) :
    Alike (.group index first) (.group index second) := by
  intro ignoreCase
  simp only [ways, same ignoreCase]

theorem seq_assoc (first second third : Regex) :
    Alike (.seq first (.seq second third)) (.seq (.seq first second) third) := by
  intro ignoreCase
  funext cursor
  simp only [ways, List.flatMap_assoc]

theorem empty_seq (regex : Regex) : Alike regex (.seq .empty regex) := by
  intro ignoreCase
  funext cursor
  simp only [ways, List.flatMap_singleton]

theorem seq_empty (regex : Regex) : Alike (.seq regex .empty) regex := by
  intro ignoreCase
  funext cursor
  simp only [ways, List.flatMap_singleton']

theorem fullMatch?_eq (same : Alike first second) (ignoreCase : Bool) (text : List Char) :
    first.fullMatch? ignoreCase text = second.fullMatch? ignoreCase text := by
  unfold fullMatch?
  rw [matchFrom_follows, matchFrom_follows, same ignoreCase]

end Alike

/-! ## Reading in front of other texts -/

/-- A text that begins with no mark of repetition. -/
def Calm (text : List Char) : Prop :=
  ∀ c, text.head? = some c → c ∉ ['*', '+', '?', '\x7b']

theorem calm_cons {c : Char} {text : List Char} (other : c ∉ ['*', '+', '?', '\x7b']) :
    Calm (c :: text) := by
  rintro _ ⟨⟩
  exact other

theorem Calm.repetition? {text : List Char} (calm : Calm text) : repetition? text = none := by
  cases text with
  | nil => rfl
  | cons c text =>
    have other := calm c rfl
    simp only [List.mem_cons, List.not_mem_nil, or_false, not_or] at other
    obtain ⟨star, plus, question, brace⟩ := other
    unfold Regex.repetition? bounds?
    split
    case h_1 same => exact absurd (List.cons.inj same).1 star
    case h_2 same => exact absurd (List.cons.inj same).1 plus
    case h_3 same => exact absurd (List.cons.inj same).1 question
    case h_4 =>
      split
      case h_1 same => exact absurd (List.cons.inj same).1 brace
      case h_2 => rfl

theorem Calm.repeated {text : List Char} (calm : Calm text) (body : Regex) :
    repeated body text = (body, text) := by
  unfold Regex.repeated
  rw [calm.repetition?]

theorem Calm.repeated_mark {text mark : List Char} {least : Nat} {most : Option Nat}
    (calm : Calm text) (body : Regex)
    (marks : Regex.repetition? (mark ++ text) = some ((least, most), text)) :
    Regex.repeated body (mark ++ text) = (.loop true least most body, text) := by
  unfold Regex.repeated
  rw [marks]
  cases text with
  | nil => rfl
  | cons c text =>
    have question : c ≠ '?' := fun same => calm c rfl (by simp [same])
    split
    case h_1 none => cases none
    case h_2 some =>
      cases some
      contradiction
    case h_3 some =>
      cases some
      rfl

/-- Reading a text gives an expression up to what is left of the text. -/
def Reads (groups : Nat) (text : List Char) (regex : Regex) (groups' : Nat) (rest : List Char) :
    Prop :=
  ∀ fuel, 3 * text.length < fuel → ∃ read,
    sequence? fuel groups text = some (read, groups', rest) ∧ Alike read regex

/-- A text that is read as an expression, whatever comes behind it, and the number of groups that it
opens. -/
structure Written (groups : Nat) (source : List Char) (regex : Regex) (opened : Nat) : Prop where
  calm : ∀ rest, Calm rest → Calm (source ++ rest)
  reads : ∀ rest others groups' rest', Calm rest → Reads (groups + opened) rest others groups' rest' →
    Reads groups (source ++ rest) (.seq regex others) groups' rest'

theorem Reads.alike {groups groups' : Nat} {text rest : List Char} {regex other : Regex}
    (reads : Reads groups text regex groups' rest) (same : Alike regex other) :
    Reads groups text other groups' rest := by
  intro fuel enough
  obtain ⟨read, known, alike⟩ := reads fuel enough
  exact ⟨read, known, alike.trans same⟩

theorem reads_end {text : List Char} (ends : ∀ c, text.head? = some c → c = '|' ∨ c = ')') (groups : Nat) :
    Reads groups text .empty groups text := by
  intro fuel enough
  obtain ⟨fuel, rfl⟩ := Nat.exists_eq_add_one_of_ne_zero (Nat.ne_zero_of_lt enough)
  refine ⟨.empty, ?_, .refl _⟩
  cases text with
  | nil => rfl
  | cons c text =>
    rcases ends c rfl with rfl | rfl
    · rfl
    · rfl

namespace Written

variable {groups opened opened' : Nat} {source source' : List Char} {regex regex' : Regex}

theorem nothing (groups : Nat) : Written groups [] .empty 0 where
  calm := fun _ calm => calm
  reads := fun _ others _ _ _ reads => reads.alike (.empty_seq others)

theorem append (first : Written groups source regex opened)
    (second : Written (groups + opened) source' regex' opened') :
    Written groups (source ++ source') (.seq regex regex') (opened + opened') where
  calm := by
    intro rest calm
    rw [List.append_assoc]
    exact first.calm _ (second.calm rest calm)
  reads := by
    intro rest others groups' rest' calm reads
    rw [List.append_assoc]
    rw [← Nat.add_assoc] at reads
    have behind := second.reads rest others groups' rest' calm reads
    exact (first.reads _ _ _ _ (second.calm rest calm) behind).alike (.seq_assoc _ _ _)

/-- What a mark of repetition applies to, with the mark if there is one. -/
theorem of_atom {c : Char} {tail : List Char} (begins : c ∉ ['|', ')', '*', '+', '?', '\x7b'])
    (reads : ∀ rest, Calm rest → ∀ fuel, 3 * (c :: (tail ++ rest)).length ≤ fuel + 1 →
      ∃ atom behind read,
        atom? (fuel + 1) groups (c :: (tail ++ rest)) = some (atom, groups + opened, behind) ∧
          repeated atom behind = (read, rest) ∧ Alike read regex) :
    Written groups (c :: tail) regex opened where
  calm := by
    intro rest _
    apply calm_cons
    intro mark
    simp only [List.mem_cons, List.not_mem_nil, or_false] at begins mark
    tauto
  reads := by
    intro rest others groups' rest' calm further fuel enough
    rw [List.cons_append] at enough ⊢
    have some_fuel : 3 * rest.length + 2 < fuel := by
      simp only [List.length_cons, List.length_append] at enough
      omega
    obtain ⟨fuel, rfl⟩ : ∃ fuel', fuel = fuel' + 1 + 1 := ⟨fuel - 2, by omega⟩
    obtain ⟨atom, behind, read, known, marked, alike⟩ := reads rest calm fuel (by omega)
    have behind_enough : 3 * rest.length < fuel + 1 := by omega
    obtain ⟨others', known', alike'⟩ := further (fuel + 1) behind_enough
    refine ⟨.seq read others', ?_, alike.seq alike'⟩
    unfold sequence?
    split
    case h_1 none => cases none
    case h_2 bar =>
      obtain ⟨rfl, -⟩ := List.cons.inj bar
      exact absurd (by simp) begins
    case h_3 bracket =>
      obtain ⟨rfl, -⟩ := List.cons.inj bracket
      exact absurd (by simp) begins
    case h_4 =>
      simp [known, marked, known']

/-! ## Characters and classes -/

theorem plain {c : Char}
    (other : c ∉ ['|', ')', '*', '+', '?', '\x7b', '.', '^', '$', '[', '(', '\\']) (groups : Nat) :
    Written groups [c] (.char c) 0 := by
  simp only [List.mem_cons, List.not_mem_nil, or_false, not_or] at other
  apply of_atom
  · simp only [List.mem_cons, List.not_mem_nil, or_false, not_or]
    tauto
  · intro rest calm fuel enough
    refine ⟨.char c, rest, .char c, ?_, calm.repeated _, .refl _⟩
    unfold atom?
    split <;> simp_all

theorem escaped {c : Char} (single : shorthand? c = none) (itself : escapedChar c = c)
    (groups : Nat) : Written groups ['\\', c] (.char c) 0 := by
  apply of_atom (by decide)
  intro rest calm fuel enough
  refine ⟨.char c, rest, .char c, ?_, calm.repeated _, .refl _⟩
  unfold atom?
  simp [single, itself]

theorem repeated_class {letter : Char} {mark : List Char} {kind : CharKind} {negated : Bool}
    {least : Nat} {most : Option Nat} (names : shorthand? letter = some (kind, negated))
    (marks : ∀ rest, repetition? (mark ++ rest) = some ((least, most), rest)) (groups : Nat) :
    Written groups ('\\' :: letter :: mark) (.loop true least most (.named kind negated)) 0 := by
  apply of_atom (by decide)
  intro rest calm fuel enough
  refine ⟨.named kind negated, mark ++ rest, _, ?_, calm.repeated_mark _ (marks rest), .refl _⟩
  unfold atom?
  simp [names]

/-! ## Alternatives and brackets -/

end Written

/-- Alternatives that are read as an expression, up to a closing bracket or the end. -/
def Enclosed (groups : Nat) (source : List Char) (regex : Regex) (opened : Nat) : Prop :=
  ∀ rest, (∀ c, rest.head? = some c → c = ')') → ∀ fuel, 3 * (source ++ rest).length + 1 < fuel →
    ∃ read, alternatives? fuel groups (source ++ rest) = some (read, groups + opened, rest) ∧
      Alike read regex

section Brackets

variable {groups opened opened' : Nat} {source source' : List Char} {regex regex' : Regex}

theorem Written.enclosed (written : Written groups source regex opened) :
    Enclosed groups source regex opened := by
  intro rest ends fuel enough
  obtain ⟨fuel, rfl⟩ := Nat.exists_eq_add_one_of_ne_zero (Nat.ne_zero_of_lt enough)
  have calm : Calm rest := by
    intro c first
    rw [ends c first]
    decide
  have ended := reads_end (fun c first => .inr (ends c first)) (groups + opened)
  obtain ⟨read, known, alike⟩ := written.reads rest .empty _ rest calm ended fuel (by omega)
  refine ⟨read, ?_, alike.trans (.seq_empty regex)⟩
  unfold alternatives?
  rw [known]
  cases rest with
  | nil => rfl
  | cons c rest =>
    obtain rfl := ends c rfl
    rfl

theorem Enclosed.alt (first : Written groups source regex opened)
    (second : Enclosed (groups + opened) source' regex' opened') :
    Enclosed groups (source ++ '|' :: source') (.alt regex regex') (opened + opened') := by
  intro rest ends fuel enough
  obtain ⟨fuel, rfl⟩ := Nat.exists_eq_add_one_of_ne_zero (Nat.ne_zero_of_lt enough)
  rw [List.append_assoc, List.cons_append] at enough ⊢
  have bar_ends : ∀ c, ('|' :: (source' ++ rest)).head? = some c → c = '|' ∨ c = ')' := by
    rintro _ ⟨⟩
    exact .inl rfl
  have ended := reads_end bar_ends (groups + opened)
  obtain ⟨read, known, alike⟩ :=
    first.reads _ .empty _ _ (calm_cons (by decide)) ended fuel (by omega)
  have enough' : 3 * (source' ++ rest).length + 1 < fuel := by
    simp only [List.length_append, List.length_cons] at enough ⊢
    omega
  obtain ⟨read', known', alike'⟩ := second rest ends fuel enough'
  refine ⟨.alt read read', ?_, (alike.trans (.seq_empty regex)).alt alike'⟩
  unfold alternatives?
  simp [known, known', Nat.add_assoc]

theorem Enclosed.grouped (enclosed : Enclosed groups source regex opened) :
    Written groups ('(' :: '?' :: ':' :: (source ++ [')'])) regex opened := by
  apply Written.of_atom (by decide)
  intro rest calm fuel enough
  have closing : ∀ c, (')' :: rest).head? = some c → c = ')' := by
    rintro _ ⟨⟩
    rfl
  obtain ⟨read, known, alike⟩ := enclosed (')' :: rest) closing fuel (by
    simp only [List.length_append, List.length_cons, List.length_nil] at enough ⊢
    omega)
  refine ⟨read, rest, read, ?_, calm.repeated _, alike⟩
  unfold atom?
  simp [opening, known]

theorem Enclosed.numbered (enclosed : Enclosed (groups + 1) source regex opened)
    (begins : source.head? ≠ some '?') :
    Written groups ('(' :: (source ++ [')'])) (.group (groups + 1) regex) (opened + 1) := by
  apply Written.of_atom (by decide)
  intro rest calm fuel enough
  have closing : ∀ c, (')' :: rest).head? = some c → c = ')' := by
    rintro _ ⟨⟩
    rfl
  obtain ⟨read, known, alike⟩ := enclosed (')' :: rest) closing fuel (by
    simp only [List.length_append, List.length_cons, List.length_nil] at enough ⊢
    omega)
  have opens : opening (source ++ ')' :: rest) = (true, source ++ ')' :: rest) := by
    cases source with
    | nil => rfl
    | cons c source =>
      have other : c ≠ '?' := fun same => begins (by simp [same])
      unfold opening
      split <;> simp_all
  refine ⟨.group (groups + 1) read, rest, _, ?_, calm.repeated _, alike.group _⟩
  unfold atom?
  simp [opens, known, Nat.add_assoc, Nat.add_comm 1]

theorem Enclosed.read? {source : String} (enclosed : Enclosed 0 source.toList regex opened) :
    ∃ read, Regex.read? source = some (read, opened) ∧ Alike read regex := by
  obtain ⟨read, known, alike⟩ := enclosed [] nofun (3 * source.toList.length + 3) (by simp)
  refine ⟨read, ?_, alike⟩
  rw [List.append_nil, Nat.zero_add] at known
  unfold Regex.read?
  simp only [known]

end Brackets

end FeatureRunner.Regex
