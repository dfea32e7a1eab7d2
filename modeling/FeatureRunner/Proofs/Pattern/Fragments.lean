import FeatureRunner.Proofs.Pattern.Lengths

/-!
The fragments of placeholder patterns measured by what they stand for: a placeholder of each kind
by the texts it takes, literal text by the texts that fit it.
-/

namespace FeatureRunner
open FeatureRunner.Text FeatureRunner.Regex

/-- Two expressions after each other, where what follows the first never goes on with it. -/
theorem Measured.seq_of_apart {first second : Regex} {form form' : List Char → Prop}
    (measured : Measured first form) (measured' : Measured second form')
    (apart : ∀ {short tail more : List Char} {c : Char}, form short → form (short ++ c :: tail) →
      ¬form' (c :: more)) :
    Measured (.seq first second) (Joined form form') := by
  refine measured.seq measured' ?_
  intro taken next taken' next' rest rest' has _ has' next_has' same longer
  obtain ⟨c, tail, rfl, same'⟩ := longer_beginning same longer
  cases next' with
  | nil =>
    rw [List.length_nil]
    omega
  | cons d more =>
    obtain ⟨rfl, _⟩ := List.cons.inj same'
    exact absurd next_has' (apart has' has)

/-! ## Signs and digits -/

theorem setHolds_sign (c : Char) :
    setHolds false false [.range '-' '-', .range '+' '+'] c = true ↔ c = '-' ∨ c = '+' := by
  have same (d : Char) : d ≤ c ∧ c ≤ d ↔ c = d :=
    ⟨fun both => Char.le_antisymm both.2 both.1, fun same => same ▸ ⟨Char.le_refl _, Char.le_refl _⟩⟩
  simp [setHolds, itemHolds, same]

theorem sign_cons {c : Char} {tail : List Char} :
    Sign (c :: tail) ↔ tail = [] ∧ (c = '-' ∨ c = '+') := by
  constructor
  · intro sign
    cases sign <;> simp
  · rintro ⟨rfl, rfl | rfl⟩
    · exact .minus
    · exact .plus

theorem Measured.sign : Measured Fragment.sign Sign := by
  intro cursor
  have taking : ways false Fragment.sign cursor =
      oneWays (setHolds false false [.range '-' '-', .range '+' '+']) cursor ++ [cursor] := by
    have fuel : 0 + cursor.rest.length + 2 = cursor.rest.length + 2 := by omega
    unfold Fragment.sign ways
    rw [fuel]
    exact optionalWays_eq _ _ cursor
  rw [oneWays_eq] at taking
  by_cases ahead : cursor.rest.head?.any (setHolds false false [.range '-' '-', .range '+' '+'])
  · obtain ⟨c, tail, rest, sign⟩ : ∃ c tail, cursor.rest = c :: tail ∧ (c = '-' ∨ c = '+') := by
      cases rest : cursor.rest with
      | nil => simp [rest] at ahead
      | cons c tail => exact ⟨c, tail, rfl, (setHolds_sign c).1 (by simpa [rest] using ahead)⟩
    refine ⟨[1, 0], by rw [taking, if_pos ahead]; rfl, by simp, fun n => ?_⟩
    rw [rest]
    constructor
    · intro member
      obtain rfl | rfl : n = 1 ∨ n = 0 := by simpa using member
      · exact ⟨[c], tail, sign_cons.2 ⟨rfl, sign⟩, rfl, rfl⟩
      · exact ⟨[], c :: tail, .none, rfl, rfl⟩
    · rintro ⟨taken, rest', has, _, rfl⟩
      cases has <;> simp
  · refine ⟨[0], by rw [taking, if_neg ahead]; rfl, by simp, fun n => ?_⟩
    constructor
    · intro member
      exact ⟨[], cursor.rest, .none, rfl, (List.mem_singleton.1 member).symm⟩
    · rintro ⟨taken, rest, has, same, rfl⟩
      cases taken with
      | nil => simp
      | cons c tail =>
        refine absurd ?_ ahead
        rw [same]
        exact (setHolds_sign c).2 (sign_cons.1 has).2

theorem Measured.digits (least : Nat) : Measured (Fragment.digits least) fun taken =>
    least ≤ taken.length ∧ ∀ c ∈ taken, isDecimalDigit c := by
  refine (Measured.loop least .digit false).congr fun text => ?_
  simp [itemHolds, CharKind.holds]

theorem oneOrMore_iff {accepts : Char → Bool} {text : List Char} :
    OneOrMore accepts text ↔ 1 ≤ text.length ∧ ∀ c ∈ text, accepts c := by
  rw [OneOrMore, Nat.succ_le_iff, List.length_pos_iff]

theorem Measured.someDigits : Measured (Fragment.digits 1) (OneOrMore isDecimalDigit) :=
  (Measured.digits 1).congr fun _ => oneOrMore_iff.symm

/-! ## Placeholders -/

theorem Measured.afterSign {regex : Regex} {form : List Char → Prop} (measured : Measured regex form)
    (unsigned : ∀ {c : Char} {more : List Char}, form (c :: more) → c ≠ '-' ∧ c ≠ '+') :
    Measured (.seq Fragment.sign regex) (Joined Sign form) := by
  refine Measured.sign.seq_of_apart measured fun {short tail more c} _ longer has => ?_
  have sign : c = '-' ∨ c = '+' := by
    cases short with
    | nil => exact (sign_cons.1 longer).2
    | cons d short => simpa using (sign_cons.1 longer).1
  exact sign.elim (unsigned has).1 (unsigned has).2

theorem OneOrMore.head {accepts : Char → Bool} {c : Char} {more : List Char}
    (has : OneOrMore accepts (c :: more)) : accepts c :=
  has.2 c List.mem_cons_self

theorem unsigned_of_digit {c : Char} (digit : isDecimalDigit c) : c ≠ '-' ∧ c ≠ '+' := by
  constructor <;> rintro rfl <;> exact absurd digit (by decide)

theorem Measured.decimal : Measured (.alt
    (.seq (Fragment.digits 1) (.seq (.char '.') (Fragment.digits 0)))
    (.alt (.seq (.char '.') (Fragment.digits 1)) (Fragment.digits 1))) Decimal := by
  have point (c : Char) (digit : isDecimalDigit c) : c ≠ '.' := by
    rintro rfl
    exact absurd digit (by decide)
  have behindPoint (least : Nat) : Measured (.seq (.char '.') (Fragment.digits least))
      (Joined (· = ['.']) fun taken => least ≤ taken.length ∧ ∀ c ∈ taken, isDecimalDigit c) :=
    (Measured.char '.').seq_of_apart (Measured.digits least) fun short longer => by
      simp [short] at longer
  have pointInside := Measured.someDigits.seq_of_apart (behindPoint 0)
    fun {short tail more c} _ longer (following : Joined _ _ (c :: more)) => by
      obtain ⟨_, next, rfl, _, same⟩ := following
      exact point c (longer.2 c (by simp)) (List.cons.inj same).1
  have pointFirst := (behindPoint 1).alt Measured.someDigits
    fun {taken taken' rest rest'} has has' same => by
      obtain ⟨_, next, rfl, _, rfl⟩ := has
      cases taken' with
      | nil => exact absurd rfl has'.1
      | cons c tail => exact absurd (List.cons.inj same).1.symm (point c has'.head)
  refine (pointInside.alt pointFirst ?_).congr ?_
  · intro taken taken' rest rest' has has' same
    obtain ⟨whole, _, digits, ⟨_, fraction, rfl, more, rfl⟩, rfl⟩ := has
    rcases has' with ⟨_, fraction', rfl, _, rfl⟩ | digits'
    · cases whole with
      | nil => exact absurd rfl digits.1
      | cons c whole => exact absurd (List.cons.inj same).1 (point c digits.head)
    · -- The digits alone end before the point.
      rcases List.append_eq_append_iff.1 same with ⟨tail, rfl, _⟩ | ⟨tail, longer, _⟩
      · exact absurd rfl (point '.' (digits'.2 '.' (by simp)))
      · cases tail with
        | nil =>
          rw [List.append_nil] at longer
          exact absurd rfl (point '.' (digits'.2 '.' (by simp [← longer])))
        | cons c tail =>
          rw [longer]
          simp
  · intro text
    constructor
    · rintro (⟨whole, _, digits, ⟨_, fraction, rfl, more, rfl⟩, rfl⟩ |
        ⟨_, fraction, rfl, more, rfl⟩ | digits)
      · refine ⟨whole, fraction, ⟨by simp [digits.1], fun c member => ?_⟩, .inr rfl⟩
        exact (List.mem_append.1 member).elim (digits.2 c) (more.2 c)
      · exact ⟨[], fraction, oneOrMore_iff.2 more, .inr rfl⟩
      · exact ⟨text, [], by rwa [List.append_nil], .inl (List.append_nil _).symm⟩
    · rintro ⟨whole, fraction, digits, rfl | rfl⟩
      · exact .inr (.inr digits)
      · have behind (least : Nat) (enough : least ≤ fraction.length) :
            Joined (· = ['.']) (fun taken => least ≤ taken.length ∧ ∀ c ∈ taken, isDecimalDigit c)
              ('.' :: fraction) :=
          ⟨_, fraction, rfl, ⟨enough, fun c member => digits.2 c (by simp [member])⟩, rfl⟩
        by_cases none : whole = []
        · subst none
          exact .inr (.inl (behind 1 (oneOrMore_iff.1 digits).1))
        · exact .inl ⟨whole, _, ⟨none, fun c member => digits.2 c (by simp [member])⟩,
            behind 0 (Nat.zero_le _), rfl⟩

theorem Measured.taken (kind : PlaceholderKind) : Measured (Fragment.taken kind).regex kind.Takes := by
  cases kind with
  | word =>
    refine (Measured.loop 1 .blank true).congr fun text => ?_
    rw [PlaceholderKind.Takes, oneOrMore_iff]
    simp [itemHolds, CharKind.holds]
  | int => exact Measured.someDigits.afterSign fun has => unsigned_of_digit has.head
  | float =>
    refine Measured.decimal.afterSign fun {c more} has => ?_
    obtain ⟨whole, fraction, digits, same⟩ := has
    cases whole with
    | nil =>
      rcases same with rfl | same
      · exact unsigned_of_digit digits.head
      · rw [(List.cons.inj same).1]
        decide
    | cons d whole =>
      have same : c = d := by rcases same with same | same <;> exact (List.cons.inj same).1
      exact same ▸ unsigned_of_digit digits.head

/-! ## Literal text -/

theorem Measured.verbatim (text : List Char) : Measured (Fragment.verbatim text).regex (· = text) := by
  induction text with
  | nil => exact Measured.empty
  | cons c text ih =>
    refine ((Measured.char c).seq_of_apart ih fun short longer => ?_).congr fun taken => ?_
    · simp [short] at longer
    · constructor
      · rintro ⟨_, _, rfl, rfl, rfl⟩
        rfl
      · rintro rfl
        exact ⟨[c], text, rfl, rfl, rfl⟩

theorem Measured.blanks :
    Measured (Fragment.oneOrMore "\\s+" .blank false).regex (OneOrMore isBlank) := by
  refine (Measured.loop 1 .blank false).congr fun text => ?_
  rw [oneOrMore_iff]
  simp [itemHolds, CharKind.holds]

/-- A text begins otherwise than with white space. -/
def Solid (text : List Char) : Prop :=
  ∀ c, text.head? = some c → isBlank c = false

/-- A text is cut at the end of its first run. -/
theorem runs_cons {text : List Char} (some : text ≠ []) : ∃ blank run rest, text = run ++ rest ∧
    OneOrMore (isBlank · == blank) run ∧ (∀ c, rest.head? = .some c → isBlank c = !blank) ∧
    runs text = run :: runs rest := by
  induction text with
  | nil => exact absurd rfl some
  | cons c text ih =>
    cases text with
    | nil => exact ⟨isBlank c, [c], [], rfl, by simp [OneOrMore], nofun, rfl⟩
    | cons d text =>
      obtain ⟨blank, run, rest, same, ⟨_, alike⟩, ends, cut⟩ := ih (List.cons_ne_nil _ _)
      cases run with
      | nil => contradiction
      | cons e run =>
        obtain ⟨rfl, _⟩ := List.cons.inj same
        have first : isBlank d = blank := by simpa using alike d List.mem_cons_self
        by_cases going : isBlank c = blank
        · refine ⟨blank, c :: d :: run, rest, by rw [same]; rfl, ⟨by simp, ?_⟩, ends, ?_⟩
          · simpa [going] using alike
          · rw [runs, cut]
            simp [first, going]
        · refine ⟨isBlank c, [c], d :: text, rfl, by simp [OneOrMore], ?_, ?_⟩
          · rintro _ ⟨⟩
            rw [first, Bool.eq_not]
            exact Ne.symm going
          · rw [runs, cut]
            simp [first, going]

/-- No character has a property if a check finds none that does. -/
theorem forall_false_of_all {holds : Char → Bool} {text : List Char} (checked : text.all (!holds ·)) :
    ∀ c ∈ text, holds c = false := by
  simpa using checked

/-- A text is empty, or it begins with a character that is no white space or with a whole run of
white space. -/
@[elab_as_elim]
theorem spaced_induction {motive : List Char → Prop} (nil : motive [])
    (char : ∀ c text, isBlank c = false → motive text → motive (c :: text))
    (blanks : ∀ run text, OneOrMore isBlank run → Solid text → motive text → motive (run ++ text))
    (text : List Char) : motive text := by
  induction size : text.length using Nat.strongRecOn generalizing text with
  | ind size' ih =>
    by_cases none : text = []
    · exact none ▸ nil
    · obtain ⟨blank, run, rest, rfl, alike, ends, -⟩ := runs_cons none
      have some := List.length_pos_iff.2 alike.1
      rw [List.length_append] at size
      cases blank with
      | true =>
        have run_blank : OneOrMore isBlank run := by simpa [OneOrMore] using alike
        have solid : Solid rest := fun c first => by simpa using ends c first
        exact blanks run rest run_blank solid (ih rest.length (by omega) rest rfl)
      | false =>
        cases run with
        | nil => exact absurd rfl alike.1
        | cons c run =>
          have solid : isBlank c = false := by simpa using alike.2 c List.mem_cons_self
          exact char c (run ++ rest) solid (ih _ (by simp at size ⊢; omega) (run ++ rest) rfl)

/-- A run of characters of a kind is taken up to where others begin. -/
theorem takeWhile_run {accepts : Char → Bool} {run : List Char} (rest : List Char)
    (all : ∀ c ∈ run, accepts c) (ends : ∀ c, rest.head? = some c → accepts c = false) :
    (run ++ rest).takeWhile accepts = run ∧ (run ++ rest).dropWhile accepts = rest := by
  rw [List.takeWhile_append_of_pos all, List.dropWhile_append_of_pos all]
  cases rest with
  | nil => simp
  | cons c rest => simp [ends c rfl]

theorem blanks_unique {run run' text text' : List Char} (blank : ∀ c ∈ run, isBlank c)
    (blank' : ∀ c ∈ run', isBlank c) (solid : Solid text) (solid' : Solid text')
    (same : run ++ text = run' ++ text') : run = run' ∧ text = text' := by
  obtain ⟨taken, dropped⟩ := takeWhile_run text blank solid
  obtain ⟨taken', dropped'⟩ := takeWhile_run text' blank' solid'
  constructor
  · rw [← taken, same, taken']
  · rw [← dropped, same, dropped']

theorem loose_nil {taken : List Char} : Loose [] taken ↔ taken = [] := by
  constructor
  · intro loose
    generalize whole : [] = given at loose
    cases loose with
    | nil => rfl
    | char => cases whole
    | blanks blank => exact absurd (List.append_eq_nil_iff.1 whole.symm).1 blank.1
  · rintro rfl
    exact .nil

theorem loose_cons {c : Char} {text taken : List Char} (solid : isBlank c = false) :
    Loose (c :: text) taken ↔ ∃ further, taken = c :: further ∧ Loose text further := by
  constructor
  · intro loose
    generalize whole : c :: text = given at loose
    cases loose with
    | nil => cases whole
    | char _ further =>
      cases whole
      exact ⟨_, rfl, further⟩
    | @blanks run _ _ _ blank =>
      cases run with
      | nil => exact absurd rfl blank.1
      | cons d run =>
        have first := blank.head
        rw [← (List.cons.inj whole).1, solid] at first
        cases first
  · rintro ⟨further, rfl, loose⟩
    exact .char solid loose

theorem loose_append {run text taken : List Char} (solid : ∀ c ∈ run, isBlank c = false) :
    Loose (run ++ text) taken ↔ ∃ further, taken = run ++ further ∧ Loose text further := by
  induction run generalizing taken with
  | nil => simp
  | cons c run ih =>
    rw [List.cons_append, loose_cons (solid c List.mem_cons_self)]
    simp only [ih fun d member => solid d (List.mem_cons_of_mem c member)]
    constructor
    · rintro ⟨_, rfl, further, rfl, loose⟩
      exact ⟨further, rfl, loose⟩
    · rintro ⟨further, rfl, loose⟩
      exact ⟨_, rfl, further, rfl, loose⟩

theorem loose_blanks {run text taken : List Char} (blank : OneOrMore isBlank run)
    (solid : Solid text) : Loose (run ++ text) taken ↔ Joined (OneOrMore isBlank) (Loose text) taken := by
  constructor
  · intro loose
    generalize whole : run ++ text = given at loose
    cases loose with
    | nil => exact absurd (List.append_eq_nil_iff.1 whole).1 blank.1
    | char solid' =>
      cases run with
      | nil => exact absurd rfl blank.1
      | cons c run =>
        have first := blank.head
        rw [(List.cons.inj whole).1, solid'] at first
        cases first
    | blanks blank' blank'' solid' further =>
      obtain ⟨rfl, rfl⟩ := blanks_unique blank.2 blank'.2 solid solid' whole
      exact ⟨_, _, blank'', further, rfl⟩
  · rintro ⟨run', further, blank', loose, rfl⟩
    exact .blanks blank blank' solid loose

theorem Loose.solid {text taken : List Char} (loose : Loose text taken) (solid : Solid text) :
    Solid taken := by
  cases loose with
  | nil => exact solid
  | char solid' => exact fun _ first => Option.some.inj first ▸ solid'
  | @blanks run _ _ _ blank =>
    cases run with
    | nil => exact absurd rfl blank.1
    | cons c run =>
      have first := blank.head
      rw [solid c rfl] at first
      cases first

theorem Measured.tolerant (text : List Char) :
    Measured (Fragment.literal .tolerant text).regex (Loose text) := by
  induction size : text.length using Nat.strongRecOn generalizing text with
  | ind size' ih =>
    by_cases none : text = []
    · subst none
      exact Measured.empty.congr fun _ => loose_nil.symm
    · obtain ⟨blank, run, rest, rfl, alike, ends, cut⟩ := runs_cons none
      have shorter : rest.length < size' := by
        have some := List.length_pos_iff.2 alike.1
        rw [List.length_append] at size
        omega
      have further := ih _ shorter rest rfl
      unfold Fragment.literal at further ⊢
      dsimp only at further ⊢
      rw [cut, List.map_cons]
      cases blank with
      | true =>
        have run_blank : OneOrMore isBlank run := by simpa [OneOrMore] using alike
        have solid : Solid rest := fun c first => by simpa using ends c first
        rw [if_pos (List.all_eq_true.2 run_blank.2)]
        refine (Measured.blanks.seq_of_apart further fun _ longer loose => ?_).congr fun taken => ?_
        · have first := loose.solid solid _ rfl
          rw [longer.2 _ (by simp)] at first
          cases first
        · exact (loose_blanks run_blank solid).symm
      | false =>
        have run_solid : ∀ c ∈ run, isBlank c = false := by simpa using alike.2
        have whole : run.all isBlank = false := by
          cases run with
          | nil => exact absurd rfl alike.1
          | cons c run => simp [run_solid c]
        rw [whole, if_neg Bool.false_ne_true]
        refine ((Measured.verbatim run).seq_of_apart further fun short longer => ?_).congr
          fun taken => ?_
        · simp [short] at longer
        · rw [loose_append run_solid, Joined]
          simp [and_comm]

theorem Measured.literal (policy : WhitespacePolicy) (text : List Char) :
    Measured (Fragment.literal policy text).regex (policy.Fits text) := by
  cases policy with
  | tolerant => exact Measured.tolerant text
  | strict => exact Measured.verbatim text

/-- A text that fits a literal and goes on fitting it goes on with white space. -/
theorem fits_onward {policy : WhitespacePolicy} {text taken tail : List Char} {c : Char}
    (fits : policy.Fits text taken) (longer : policy.Fits text (taken ++ c :: tail)) :
    isBlank c := by
  cases policy with
  | strict =>
    rw [WhitespacePolicy.Fits] at fits longer
    simp [fits] at longer
  | tolerant =>
    rw [WhitespacePolicy.Fits] at fits longer
    induction fits with
    | nil => cases loose_nil.1 longer
    | char solid _ ih =>
      obtain ⟨further, same, loose⟩ := (loose_cons solid).1 longer
      obtain ⟨_, rfl⟩ := List.cons.inj same
      exact ih loose
    | @blanks run run' text taken blank blank' solid loose ih =>
      obtain ⟨run'', further, blank'', loose', same⟩ := (loose_blanks blank solid).1 longer
      rw [List.append_assoc] at same
      cases text with
      | nil =>
        rw [loose_nil.1 loose, loose_nil.1 loose', List.nil_append, List.append_nil] at same
        exact blank''.2 c (same ▸ by simp)
      | cons d text =>
        obtain ⟨taken, rfl, _⟩ := (loose_cons (solid d rfl)).1 loose
        obtain ⟨_, rfl⟩ := blanks_unique blank'.2 blank''.2 (by simpa [Solid] using solid d rfl)
          (loose'.solid solid) same
        exact ih loose'

end FeatureRunner
