import FeatureRunner.Proofs.Pattern.Fragments

/-!
The ways of a whole pattern. They are the splits of the beginnings of the text ahead, in an order
in which what the placeholders take never grows, so that the first of them that reaches the end of
the text is the longest split.
-/

namespace FeatureRunner
open FeatureRunner.Text FeatureRunner.Regex

theorem not_blank_of_digit {c : Char} (digit : isDecimalDigit c) : isBlank c = false := by
  obtain ⟨value, known⟩ := Option.isSome_iff_exists.1 digit
  obtain ⟨start, found, _⟩ := Option.map_eq_some_iff.1 known
  have inside := List.find?_some found
  simp only [Bool.and_eq_true, decide_eq_true_eq] at inside
  obtain ⟨k, bound, point⟩ : ∃ k < 10, c.toNat = start + k :=
    ⟨c.toNat - start, by omega, by omega⟩
  have table : ∀ start ∈ zeroDigits, ∀ k < 10, isBlank (Char.ofNat (start + k)) = false := by
    decide +kernel
  have := table start (List.mem_of_find?_eq_some found) k bound
  rwa [← point, Char.ofNat_toNat] at this

/-- What a placeholder takes begins with no white space. -/
theorem PlaceholderKind.Takes.solid {kind : PlaceholderKind} {held : List Char}
    (takes : kind.Takes held) (rest : List Char) : ∃ c tail, held ++ rest = c :: tail ∧ isBlank c = false := by
  have signed {sign digits : List Char} (has : Sign sign)
      (solid : ∃ c tail, digits = c :: tail ∧ isBlank c = false) :
      ∃ c tail, sign ++ digits ++ rest = c :: tail ∧ isBlank c = false := by
    cases has with
    | none =>
      obtain ⟨c, tail, rfl, solid⟩ := solid
      exact ⟨c, tail ++ rest, rfl, solid⟩
    | minus => exact ⟨_, _, rfl, by decide⟩
    | plus => exact ⟨_, _, rfl, by decide⟩
  cases kind with
  | word =>
    cases held with
    | nil => exact absurd rfl takes.1
    | cons c held => exact ⟨c, held ++ rest, rfl, by simpa using takes.head⟩
  | int =>
    obtain ⟨sign, digits, has, more, rfl⟩ := takes
    cases digits with
    | nil => exact absurd rfl more.1
    | cons c tail => exact signed has ⟨c, tail, rfl, not_blank_of_digit more.head⟩
  | float =>
    obtain ⟨sign, number, has, ⟨whole, fraction, digits, shape⟩, rfl⟩ := takes
    refine signed has ?_
    cases whole with
    | nil =>
      rcases shape with rfl | rfl
      · cases number with
        | nil => exact absurd rfl digits.1
        | cons c tail => exact ⟨c, tail, rfl, not_blank_of_digit digits.head⟩
      · exact ⟨_, _, rfl, by decide⟩
    | cons c whole =>
      have solid := not_blank_of_digit digits.head
      rcases shape with rfl | rfl
      · exact ⟨c, _, rfl, solid⟩
      · exact ⟨c, _, rfl, solid⟩

/-- Neither does a placeholder with its mark. -/
theorem Placeholder.solid (slot : Placeholder) {held : List Char}
    (takes : slot.kind.Takes held) (rest : List Char) :
    ∃ c tail, slot.mark ++ (held ++ rest) = c :: tail ∧ isBlank c = false := by
  unfold Placeholder.mark
  cases slot.amount with
  | false => simpa using takes.solid rest
  | true => exact ⟨'$', held ++ rest, rfl, by decide⟩

/-- The parts of a pattern with the given literals and placeholders. -/
def PatternPart.interleave (literal : List Char) (slots : List (Placeholder × List Char)) :
    List PatternPart :=
  .literal literal :: slots.flatMap fun (slot, next) => [.placeholder slot, .literal next]

/-- What the groups hold when those from `index` on have taken the given texts. -/
def Regex.Captures.holding (index : Nat) : List (List Char) → Captures → Captures
  | [], captures => captures
  | held :: helds, captures => holding (index + 1) helds ((index, held) :: captures)

theorem ways_held (index : Nat) (kind : PlaceholderKind) (cursor : Cursor) :
    ∃ lengths : List Nat,
      ways false (.group index (Fragment.taken kind).regex) cursor = lengths.map (fun n =>
        { cursor.advance n with captures := (index, cursor.rest.take n) :: cursor.captures }) ∧
      lengths.Pairwise (· > ·) ∧
      ∀ n, n ∈ lengths ↔ ∃ held rest, kind.Takes held ∧ cursor.rest = held ++ rest ∧
        held.length = n := by
  obtain ⟨lengths, eq, decreasing, member⟩ := Measured.taken kind cursor
  refine ⟨lengths, ?_, decreasing, member⟩
  unfold ways
  rw [eq, List.map_map]
  refine List.map_congr_left fun n _ => ?_
  simp [Cursor.advance]

theorem ways_placeholder (index : Nat) (slot : Placeholder) (cursor : Cursor) :
    ∃ lengths : List Nat,
      ways false (Fragment.placeholder index slot).regex cursor = lengths.map (fun n =>
        { cursor.advance (slot.mark.length + n) with captures :=
            (index, (cursor.rest.drop slot.mark.length).take n) :: cursor.captures }) ∧
      lengths.Pairwise (· > ·) ∧
      ∀ n, n ∈ lengths ↔ ∃ held rest, slot.kind.Takes held ∧
        cursor.rest = slot.mark ++ (held ++ rest) ∧ held.length = n := by
  unfold Fragment.placeholder Placeholder.mark
  cases slot.amount with
  | false => simpa using ways_held index slot.kind cursor
  | true =>
    obtain ⟨lengths, eq, decreasing, member⟩ := ways_held index slot.kind (cursor.advance 1)
    have dollar : ways false (.char '$') cursor =
        if cursor.rest.head? = some '$' then [cursor.advance 1] else [] := by
      unfold ways
      rw [oneWays_eq]
      cases cursor.rest <;> simp
    by_cases ahead : cursor.rest.head? = some '$'
    · obtain ⟨tail, rest⟩ := List.head?_eq_some_iff.1 ahead
      refine ⟨lengths, ?_, decreasing, fun n => ?_⟩
      · change (ways false (.char '$') cursor).flatMap _ = _
        rw [dollar, if_pos ahead, List.flatMap_singleton, eq]
        refine List.map_congr_left fun n _ => ?_
        simp [Cursor.advance, Nat.add_assoc, Nat.add_comm 1]
      · rw [member]
        simp [Cursor.advance, rest]
    · refine ⟨[], ?_, .nil, fun n => ?_⟩
      · change (ways false (.char '$') cursor).flatMap _ = _
        rw [dollar, if_neg ahead]
        rfl
      · simp only [List.not_mem_nil, false_iff, if_true]
        rintro ⟨held, rest, _, same, _⟩
        exact ahead (by rw [same]; rfl)

/-- The ways of a pattern are the splits of the beginnings ahead. No later one has the
placeholders take more. -/
theorem ways_pattern (policy : WhitespacePolicy) (literal : List Char)
    (slots : List (Placeholder × List Char)) (index : Nat) (cursor : Cursor) :
    ∃ splits : List (List (List Char) × Nat),
      ways false (Fragment.ofParts policy index (PatternPart.interleave literal slots)).regex cursor =
        splits.map (fun (helds, n) =>
          { cursor.advance n with captures := Captures.holding index helds cursor.captures }) ∧
      splits.Pairwise (fun first second => NoShorter first.1 second.1) ∧
      ∀ helds n, (helds, n) ∈ splits ↔ ∃ taken rest, Splits policy literal slots taken helds ∧
        cursor.rest = taken ++ rest ∧ taken.length = n := by
  induction slots generalizing literal index cursor with
  | nil =>
    obtain ⟨lengths, eq, decreasing, member⟩ := Measured.literal policy literal cursor
    refine ⟨lengths.map fun n => ([], n), ?_, ?_, fun helds n => ?_⟩
    · change (ways false (Fragment.literal policy literal).regex cursor).flatMap _ = _
      rw [eq, List.flatMap_map, List.map_map]
      exact List.map_eq_flatMap.symm
    · exact List.pairwise_map.2 (decreasing.imp fun _ => trivial)
    · simp only [List.mem_map, Prod.mk.injEq, member]
      constructor
      · rintro ⟨_, ⟨taken, rest, fits, same, rfl⟩, rfl, rfl⟩
        exact ⟨taken, rest, .last fits, same, rfl⟩
      · rintro ⟨taken, rest, split, same, rfl⟩
        cases split with
        | last fits => exact ⟨_, ⟨taken, rest, fits, same, rfl⟩, rfl, rfl⟩
  | cons head slots ih =>
    obtain ⟨slot, next⟩ := head
    obtain ⟨befores, eq, decreasing, member⟩ := Measured.literal policy literal cursor
    choose holds held_eq held_decreasing held_member using ways_placeholder index slot
    choose splits split_eq split_ordered split_member using ih next (index + 1)
    let held (n m : Nat) : List Char := ((cursor.rest.drop n).drop slot.mark.length).take m
    let after (n m : Nat) : Cursor := { (cursor.advance n).advance (slot.mark.length + m) with
      captures := (index, held n m) :: cursor.captures }
    have inside {n m : Nat} (fitting : n ∈ befores) (taking : m ∈ holds (cursor.advance n)) :
        ∃ before rest, policy.Fits literal before ∧ slot.kind.Takes (held n m) ∧
          cursor.rest = before ++ (slot.mark ++ (held n m ++ rest)) ∧ before.length = n ∧
          (held n m).length = m ∧ (after n m).rest = rest := by
      obtain ⟨before, rest, fits, same, rfl⟩ := (member n).1 fitting
      obtain ⟨text, rest', takes, same', rfl⟩ := (held_member _ m).1 taking
      have rest_eq : rest = slot.mark ++ (text ++ rest') := by
        rw [← same']
        simp [Cursor.advance, same]
      have held_eq : held before.length text.length = text := by
        simp [held, same, rest_eq]
      rw [held_eq]
      refine ⟨before, rest', fits, takes, rest_eq ▸ same, rfl, rfl, ?_⟩
      simp [after, Cursor.advance, same, rest_eq]
    refine ⟨befores.flatMap fun n => (holds (cursor.advance n)).flatMap fun m =>
      (splits (after n m)).map fun split =>
        (held n m :: split.1, n + (slot.mark.length + m) + split.2), ?_, ?_, fun helds n => ⟨?_, ?_⟩⟩
    · change (ways false (Fragment.literal policy literal).regex cursor).flatMap (fun middle =>
        (ways false (Fragment.placeholder index slot).regex middle).flatMap (ways false
          (Fragment.ofParts policy (index + 1) (PatternPart.interleave next slots)).regex)) = _
      rw [eq, List.flatMap_map, List.map_flatMap]
      refine congrArg (List.flatMap · _) (funext fun n => ?_)
      rw [held_eq, List.flatMap_map, List.map_flatMap]
      refine congrArg (List.flatMap · _) (funext fun m => ?_)
      rw [List.map_map]
      refine (split_eq (after n m)).trans (List.map_congr_left fun split _ => ?_)
      simp [Cursor.advance, after, Captures.holding, Nat.add_assoc]
    · refine List.pairwise_flatMap.2 ⟨fun n fitting => List.pairwise_flatMap.2 ⟨fun m _ => ?_, ?_⟩, ?_⟩
      · exact List.pairwise_map.2 ((split_ordered (after n m)).imp fun below =>
          .inr ⟨rfl, below⟩)
      · refine (held_decreasing (cursor.advance n)).imp_of_mem fun {m m'} taking taking' above => ?_
        intro first of_m second of_m'
        obtain ⟨_, _, rfl⟩ := List.mem_map.1 of_m
        obtain ⟨_, _, rfl⟩ := List.mem_map.1 of_m'
        obtain ⟨_, _, _, _, _, _, length, _⟩ := inside fitting taking
        obtain ⟨_, _, _, _, _, _, length', _⟩ := inside fitting taking'
        exact .inl (by rwa [length, length'])
      · -- Of two texts that fit the literal, the shorter leaves white space for the placeholder.
        refine decreasing.imp_of_mem fun {n n'} fitting fitting' above => ?_
        intro first of_n second of_n'
        obtain ⟨m, taking, _⟩ := List.mem_flatMap.1 of_n
        obtain ⟨m', taking', _⟩ := List.mem_flatMap.1 of_n'
        obtain ⟨before, rest, fits, _, same, rfl, _, _⟩ := inside fitting taking
        obtain ⟨before', rest', fits', takes', same', rfl, _, _⟩ := inside fitting' taking'
        obtain ⟨c, tail, rfl, ahead⟩ := longer_beginning (same.symm.trans same') above
        obtain ⟨d, tail', ahead', solid⟩ := slot.solid takes' rest'
        rw [ahead'] at ahead
        rw [(List.cons.inj ahead).1, fits_onward fits' fits] at solid
        cases solid
    · intro split
      obtain ⟨n', fitting, split⟩ := List.mem_flatMap.1 split
      obtain ⟨m, taking, split⟩ := List.mem_flatMap.1 split
      obtain ⟨⟨helds', k⟩, split, whole⟩ := List.mem_map.1 split
      obtain ⟨before, rest, fits, takes, same, rfl, length, behind⟩ := inside fitting taking
      obtain ⟨taken, rest', further, same', rfl⟩ := (split_member _ helds' k).1 split
      cases whole
      refine ⟨_, rest', .slot fits takes further, ?_, ?_⟩
      · rw [same, ← behind, same']
        simp
      · simp only [List.length_append, length]
        omega
    · rintro ⟨_, rest, split, same, rfl⟩
      cases split with
      | @slot _ before _ text taken _ _ helds fits takes further =>
        have same' : cursor.rest = before ++ (slot.mark ++ (text ++ (taken ++ rest))) := by
          simp [same]
        have held_eq : held before.length text.length = text := by simp [held, same']
        have behind : (after before.length text.length).rest = taken ++ rest := by
          simp [after, Cursor.advance, same']
        refine List.mem_flatMap.2 ⟨before.length, (member _).2 ⟨before, _, fits, same', rfl⟩, ?_⟩
        refine List.mem_flatMap.2 ⟨text.length, (held_member _ _).2 ⟨text, taken ++ rest, takes, ?_, rfl⟩, ?_⟩
        · simp [Cursor.advance, same']
        · refine List.mem_map.2 ⟨(helds, taken.length), (split_member _ _ _).2 ⟨taken, rest, further, behind, rfl⟩, ?_⟩
          simp [held_eq, Nat.add_assoc]

end FeatureRunner
