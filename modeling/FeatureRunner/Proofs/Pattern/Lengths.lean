import FeatureRunner.Proofs.Pattern.Grammar
import FeatureRunner.Proofs.Regex.Ways

/-!
How much the fragments of placeholder patterns take. The ways of a fragment without groups are the
lengths of those beginnings of the text ahead that have the form the fragment stands for, longest
first.
-/

namespace FeatureRunner
open FeatureRunner.Text FeatureRunner.Regex

/-! ## Lengths -/

/-- The place after a number of characters. -/
def Regex.Cursor.advance (cursor : Cursor) (length : Nat) : Cursor :=
  { cursor with position := cursor.position + length, rest := cursor.rest.drop length }

theorem advance_advance (cursor : Cursor) (first second : Nat) :
    (cursor.advance first).advance second = cursor.advance (first + second) := by
  simp [Cursor.advance, Nat.add_assoc]

/-- The numbers from a limit down to the least. -/
def counts (least : Nat) : Nat → List Nat
  | 0 => if least = 0 then [0] else []
  | limit + 1 => (counts (least - 1) limit).map (· + 1) ++ if least = 0 then [0] else []

theorem counts_succ (least limit : Nat) : counts least (limit + 1) =
    (counts (least - 1) limit).map (· + 1) ++ if least = 0 then [0] else [] := rfl

theorem mem_counts {least limit n : Nat} : n ∈ counts least limit ↔ least ≤ n ∧ n ≤ limit := by
  induction limit generalizing least n with
  | zero =>
    unfold counts
    split
    · simp only [List.mem_singleton]
      omega
    · simp only [List.not_mem_nil, false_iff]
      omega
  | succ limit ih =>
    unfold counts
    simp only [List.mem_append, List.mem_map, ih]
    constructor
    · rintro (⟨m, bounds, rfl⟩ | last)
      · omega
      · split at last
        · simp only [List.mem_singleton] at last
          omega
        · cases last
    · intro bounds
      cases n with
      | zero => exact .inr (by simp [Nat.le_zero.1 bounds.1])
      | succ n => exact .inl ⟨n, by omega, rfl⟩

theorem counts_decreasing (least limit : Nat) : (counts least limit).Pairwise (· > ·) := by
  induction limit generalizing least with
  | zero =>
    unfold counts
    split <;> simp
  | succ limit ih =>
    unfold counts
    refine List.pairwise_append.2 ⟨?_, ?_, ?_⟩
    · exact List.pairwise_map.2 ((ih _).imp fun above => Nat.succ_lt_succ above)
    · split <;> simp
    · intro n member m last
      obtain ⟨n, _, rfl⟩ := List.mem_map.1 member
      split at last
      · simp only [List.mem_singleton] at last
        omega
      · cases last

/-- How many characters of a kind a text begins with. -/
def countAhead (accepts : Char → Bool) (text : List Char) : Nat :=
  (text.takeWhile accepts).length

theorem countAhead_le (accepts : Char → Bool) (text : List Char) :
    countAhead accepts text ≤ text.length :=
  (List.takeWhile_prefix _).length_le

theorem le_countAhead {accepts : Char → Bool} {taken rest : List Char} :
    taken.length ≤ countAhead accepts (taken ++ rest) ↔ ∀ c ∈ taken, accepts c := by
  induction taken with
  | nil => simp
  | cons c taken ih =>
    by_cases accepted : accepts c
    · simpa [countAhead, accepted] using ih
    · simp [countAhead, accepted]

/-! ## Characters and runs of them -/

theorem oneWays_eq (accepts : Char → Bool) (cursor : Cursor) :
    oneWays accepts cursor = if cursor.rest.head?.any accepts then [cursor.advance 1] else [] := by
  unfold oneWays
  cases rest : cursor.rest with
  | nil => rfl
  | cons c tail => simp [Cursor.advance, rest]

/-- An optional character is taken or not. -/
theorem optionalWays_eq (accepts : Char → Bool) (fuel : Nat) (cursor : Cursor) :
    iterateWays true 0 (some 1) (oneWays accepts) (fuel + 2) 0 none cursor =
      oneWays accepts cursor ++ [cursor] := by
  have once (last : Option Nat) (after : Cursor) :
      iterateWays true 0 (some 1) (oneWays accepts) (fuel + 1) 1 last after = [after] := rfl
  change (oneWays accepts cursor).flatMap (iterateWays true 0 (some 1) (oneWays accepts)
    (fuel + 1) 1 (some cursor.position)) ++ [cursor] = _
  rw [funext (once (some cursor.position)), List.flatMap_singleton']

theorem iterateWays_eq (accepts : Char → Bool) (least fuel count : Nat) (last : Option Nat)
    (cursor : Cursor) (enough : cursor.rest.length < fuel)
    (behind : ∀ place, last = some place → place < cursor.position) :
    iterateWays true least none (oneWays accepts) fuel count last cursor =
      (counts (least - count) (countAhead accepts cursor.rest)).map cursor.advance := by
  induction fuel generalizing count last cursor with
  | zero => exact absurd enough (Nat.not_lt_zero _)
  | succ fuel ih =>
    have onward : (last != some cursor.position) = true := by
      rw [bne_iff_ne]
      exact fun same => Nat.lt_irrefl _ (behind _ same)
    unfold iterateWays
    simp only [oneWays_eq, Option.all_none, Bool.true_and, onward, if_true]
    by_cases taken : cursor.rest.head?.any accepts
    · obtain ⟨c, tail, rest, accepted⟩ : ∃ c tail, cursor.rest = c :: tail ∧ accepts c := by
        cases rest : cursor.rest with
        | nil => simp [rest] at taken
        | cons c tail => exact ⟨c, tail, rfl, by simpa [rest] using taken⟩
      have length : (cursor.advance 1).rest.length < fuel := by
        simp only [Cursor.advance, rest, List.drop_succ_cons, List.drop_zero]
        rw [rest, List.length_cons] at enough
        omega
      have again (last : Option Nat)
          (behind : ∀ place, last = some place → place < (cursor.advance 1).position) :
          iterateWays true least none (oneWays accepts) fuel (count + 1) last (cursor.advance 1) =
            ((counts (least - count - 1) (countAhead accepts tail)).map (· + 1)).map cursor.advance := by
        rw [ih (count + 1) last _ length behind, List.map_map, Nat.sub_sub]
        simp only [Cursor.advance, rest, List.drop_succ_cons, List.drop_zero]
        refine List.map_congr_left fun n _ => ?_
        simp [Cursor.advance, rest, Nat.add_comm, Nat.add_left_comm]
      have more : countAhead accepts cursor.rest = countAhead accepts tail + 1 := by
        simp [countAhead, rest, accepted]
      simp only [taken, if_true, List.flatMap_cons, List.flatMap_nil, List.append_nil, more]
      rw [again last fun place same => Nat.lt_succ_of_lt (behind place same),
        again (some cursor.position) fun place same => by cases same; exact Nat.lt_succ_self _]
      rw [counts_succ]
      by_cases few : count < least
      · rw [if_pos few, if_neg (Nat.sub_ne_zero_of_lt few), List.append_nil]
      · rw [if_neg few, if_pos (Nat.sub_eq_zero_of_le (Nat.le_of_not_lt few)), List.map_append]
        rfl
    · have none : countAhead accepts cursor.rest = 0 := by
        cases rest : cursor.rest with
        | nil => rfl
        | cons c tail =>
          have refused : accepts c = false := by simpa [rest] using taken
          simp [countAhead, refused]
      simp only [if_neg taken, List.flatMap_nil, List.nil_append, none, counts]
      by_cases few : count < least
      · rw [if_pos few, if_neg (Nat.sub_ne_zero_of_lt few)]
        rfl
      · rw [if_neg few, if_pos (Nat.sub_eq_zero_of_le (Nat.le_of_not_lt few))]
        rfl

/-! ## Expressions measured by a form -/

/-- The ways of an expression are the lengths of the beginnings that have a form, longest first. -/
def Measured (regex : Regex) (form : List Char → Prop) : Prop :=
  ∀ cursor, ∃ lengths : List Nat, ways false regex cursor = lengths.map cursor.advance ∧
    lengths.Pairwise (· > ·) ∧
    ∀ n, n ∈ lengths ↔ ∃ taken rest, form taken ∧ cursor.rest = taken ++ rest ∧ taken.length = n

theorem Measured.congr {regex : Regex} {form form' : List Char → Prop}
    (measured : Measured regex form) (same : ∀ text, form text ↔ form' text) :
    Measured regex form' :=
  funext (fun text => propext (same text)) ▸ measured

theorem Measured.empty : Measured .empty (· = []) := by
  intro cursor
  refine ⟨[0], rfl, List.pairwise_singleton _ _, fun n => ?_⟩
  rw [List.mem_singleton]
  constructor
  · rintro rfl
    exact ⟨[], cursor.rest, rfl, rfl, rfl⟩
  · rintro ⟨_, rest, rfl, _, rfl⟩
    rfl

/-- The longer of two beginnings goes on where the shorter ends. -/
theorem longer_beginning {taken taken' rest rest' : List Char}
    (same : taken ++ rest = taken' ++ rest') (longer : taken'.length < taken.length) :
    ∃ c tail, taken = taken' ++ c :: tail ∧ rest' = c :: tail ++ rest := by
  rcases List.append_eq_append_iff.1 same with ⟨middle, rfl, _⟩ | ⟨middle, rfl, rest⟩
  · rw [List.length_append] at longer
    omega
  · cases middle with
    | nil => simp at longer
    | cons c tail => exact ⟨c, tail, rfl, rest⟩

/-- Two expressions after each other, where more for the first is more for both. -/
theorem Measured.seq {first second : Regex} {form form' : List Char → Prop}
    (measured : Measured first form) (measured' : Measured second form')
    (ordered : ∀ {taken next taken' next' rest rest' : List Char},
      form taken → form' next → form taken' → form' next' →
      taken ++ (next ++ rest) = taken' ++ (next' ++ rest') → taken'.length < taken.length →
      taken'.length + next'.length < taken.length + next.length) :
    Measured (.seq first second) (Joined form form') := by
  intro cursor
  obtain ⟨lengths, eq, decreasing, member⟩ := measured cursor
  choose lengths' eq' decreasing' member' using fun n => measured' (cursor.advance n)
  have inside {n m : Nat} : n ∈ lengths → m ∈ lengths' n → ∃ taken next rest, form taken ∧
      form' next ∧ cursor.rest = taken ++ (next ++ rest) ∧ taken.length = n ∧ next.length = m := by
    intro taking going
    obtain ⟨taken, rest, has, same, rfl⟩ := (member n).1 taking
    obtain ⟨next, rest', has', same', rfl⟩ := (member' _ m).1 going
    have behind : (cursor.advance taken.length).rest = rest := by
      simp [Cursor.advance, same]
    exact ⟨taken, next, rest', has, has', by rw [same, ← same', behind], rfl, rfl⟩
  refine ⟨lengths.flatMap fun n => (lengths' n).map (n + ·), ?_, ?_, fun n => ⟨?_, ?_⟩⟩
  · unfold ways
    rw [eq, List.flatMap_map, List.map_flatMap]
    refine congrArg (List.flatMap · _) (funext fun n => ?_)
    rw [eq', List.map_map]
    exact List.map_congr_left fun m _ => advance_advance cursor n m
  · refine List.pairwise_flatMap.2 ⟨fun n _ => ?_, ?_⟩
    · exact List.pairwise_map.2 ((decreasing' n).imp fun above => Nat.add_lt_add_left above n)
    · refine decreasing.imp_of_mem fun {n n'} taking taking' above => ?_
      intro whole further whole' further'
      obtain ⟨m, going, rfl⟩ := List.mem_map.1 further
      obtain ⟨m', going', rfl⟩ := List.mem_map.1 further'
      obtain ⟨taken, next, rest, has, next_has, same, rfl, rfl⟩ := inside taking going
      obtain ⟨taken', next', rest', has', next_has', same', rfl, rfl⟩ := inside taking' going'
      exact ordered has next_has has' next_has' (same ▸ same') above
  · intro whole
    obtain ⟨n, taking, further⟩ := List.mem_flatMap.1 whole
    obtain ⟨m, going, rfl⟩ := List.mem_map.1 further
    obtain ⟨taken, next, rest, has, has', same, rfl, rfl⟩ := inside taking going
    exact ⟨taken ++ next, rest, ⟨taken, next, has, has', rfl⟩, by simp [same], by simp⟩
  · rintro ⟨_, rest, ⟨taken, next, has, has', rfl⟩, same, rfl⟩
    rw [List.append_assoc] at same
    have behind : (cursor.advance taken.length).rest = next ++ rest := by
      simp [Cursor.advance, same]
    refine List.mem_flatMap.2 ⟨taken.length, (member _).2 ⟨taken, _, has, same, rfl⟩, ?_⟩
    refine List.mem_map.2 ⟨next.length, (member' _ _).2 ⟨next, rest, has', behind, rfl⟩, ?_⟩
    rw [List.length_append]

/-- One of two expressions, where the first takes more than the second. -/
theorem Measured.alt {first second : Regex} {form form' : List Char → Prop}
    (measured : Measured first form) (measured' : Measured second form')
    (ordered : ∀ {taken taken' rest rest' : List Char}, form taken → form' taken' →
      taken ++ rest = taken' ++ rest' → taken'.length < taken.length) :
    Measured (.alt first second) fun text => form text ∨ form' text := by
  intro cursor
  obtain ⟨lengths, eq, decreasing, member⟩ := measured cursor
  obtain ⟨lengths', eq', decreasing', member'⟩ := measured' cursor
  refine ⟨lengths ++ lengths', ?_, ?_, fun n => ?_⟩
  · unfold ways
    rw [eq, eq', List.map_append]
  · refine List.pairwise_append.2 ⟨decreasing, decreasing', fun n taking n' taking' => ?_⟩
    obtain ⟨taken, rest, has, same, rfl⟩ := (member n).1 taking
    obtain ⟨taken', rest', has', same', rfl⟩ := (member' n').1 taking'
    exact ordered has has' (same ▸ same')
  · rw [List.mem_append, member, member']
    constructor
    · rintro (⟨taken, rest, has, shape⟩ | ⟨taken, rest, has, shape⟩)
      · exact ⟨taken, rest, .inl has, shape⟩
      · exact ⟨taken, rest, .inr has, shape⟩
    · rintro ⟨taken, rest, has | has, shape⟩
      · exact .inl ⟨taken, rest, has, shape⟩
      · exact .inr ⟨taken, rest, has, shape⟩

theorem Measured.char (c : Char) : Measured (.char c) (· = [c]) := by
  intro cursor
  refine ⟨if cursor.rest.head? = some c then [1] else [], ?_, ?_, fun n => ?_⟩
  · unfold ways
    rw [oneWays_eq]
    cases cursor.rest with
    | nil => rfl
    | cons d tail =>
      by_cases same : d = c <;> simp [same]
  · split <;> simp
  · constructor
    · intro member
      split at member
      case isTrue head =>
        obtain ⟨tail, rest⟩ := List.head?_eq_some_iff.1 head
        exact ⟨[c], tail, rfl, rest, (List.mem_singleton.1 member).symm⟩
      case isFalse => cases member
    · rintro ⟨_, rest, rfl, same, rfl⟩
      simp [same]

theorem Measured.loop (least : Nat) (kind : CharKind) (negated : Bool) :
    Measured (.loop true least none (.named kind negated)) fun taken =>
      least ≤ taken.length ∧ ∀ c ∈ taken, itemHolds false c (.named kind negated) := by
  intro cursor
  refine ⟨_, iterateWays_eq _ least _ 0 none cursor (by omega) nofun, counts_decreasing _ _,
    fun n => ?_⟩
  rw [Nat.sub_zero, mem_counts]
  constructor
  · rintro ⟨enough, within⟩
    have bound := Nat.le_trans within (countAhead_le _ _)
    have length : (cursor.rest.take n).length = n := List.length_take_of_le bound
    have same := (List.take_append_drop n cursor.rest).symm
    refine ⟨cursor.rest.take n, cursor.rest.drop n, ⟨length.symm ▸ enough, ?_⟩, same, length⟩
    refine le_countAhead.1 (?_ : _ ≤ FeatureRunner.countAhead _ (_ ++ cursor.rest.drop n))
    rwa [← same, length]
  · rintro ⟨taken, rest, ⟨enough, all⟩, same, rfl⟩
    exact ⟨enough, same ▸ le_countAhead.2 all⟩

end FeatureRunner
