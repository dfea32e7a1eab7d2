import FeatureRunner.Proofs.Pattern.Substitution

/-!
The two policies for white space compared. A tolerant pattern does not tell apart texts that differ
only in what their runs of white space are made of; it matches a text with the parameters that the
strict pattern gives one such text.
-/

namespace FeatureRunner
open FeatureRunner.Text

/-! ## White space for white space -/

namespace Loose

variable {text text' taken taken' behind behind' : List Char}

theorem symm (loose : Loose text taken) : Loose taken text := by
  induction loose with
  | nil => exact .nil
  | char solid _ ih => exact .char solid ih
  | blanks blank blank' solid loose ih => exact .blanks blank' blank (loose.solid solid) ih

theorem trans (first : Loose text taken) (second : Loose taken taken') : Loose text taken' := by
  induction first generalizing taken' with
  | nil => exact second
  | char solid _ ih =>
    obtain ⟨further, rfl, onward⟩ := (loose_cons solid).1 second
    exact .char solid (ih onward)
  | blanks blank blank' solid loose ih =>
    obtain ⟨run, further, blank'', onward, rfl⟩ := (loose_blanks blank' (loose.solid solid)).1 second
    exact .blanks blank blank'' solid (ih onward)

theorem solid_append (solid : Solid text) (solid' : Solid behind) : Solid (text ++ behind) := by
  cases text with
  | nil => exact solid'
  | cons c text => exact solid

theorem append (first : Loose text taken) (second : Loose behind behind') (solid : Solid behind) :
    Loose (text ++ behind) (taken ++ behind') := by
  induction first with
  | nil => exact second
  | char solid' _ ih => exact .char solid' ih
  | blanks blank blank' solid' _ ih =>
    rw [List.append_assoc, List.append_assoc]
    exact .blanks blank blank' (solid_append solid' solid) ih

theorem behind_run {run : List Char} (solid : ∀ c ∈ run, isBlank c = false)
    (loose : Loose text taken) : Loose (run ++ text) (run ++ taken) :=
  (loose_append solid).2 ⟨taken, rfl, loose⟩

/-- A text is cut where one that it fits is cut before a character that is no white space. -/
theorem cut (solid : Solid behind) (loose : Loose (text ++ behind) taken) :
    Joined (Loose text) (Loose behind) taken := by
  induction text using spaced_induction generalizing taken with
  | nil => exact ⟨[], taken, .nil, loose, rfl⟩
  | char c text solid' ih =>
    obtain ⟨further, rfl, onward⟩ := (loose_cons solid').1 loose
    obtain ⟨first, second, fits, fits', rfl⟩ := ih onward
    exact ⟨c :: first, second, .char solid' fits, fits', rfl⟩
  | blanks run text blank solid' ih =>
    rw [List.append_assoc] at loose
    obtain ⟨run', further, blank', onward, rfl⟩ := (loose_blanks blank (solid_append solid' solid)).1 loose
    obtain ⟨first, second, fits, fits', rfl⟩ := ih onward
    exact ⟨run' ++ first, second, .blanks blank blank' solid' fits, fits', by simp⟩

end Loose

/-- The runs of white space in a text. -/
def gaps (text : List Char) : List (List Char) :=
  (runs text).filter fun run => run.all isBlank

theorem gaps_solid {c : Char} (solid : isBlank c = false) (text : List Char) :
    gaps (c :: text) = gaps text := by
  unfold gaps
  rw [runs]
  split
  case h_1 d run others first =>
    rw [first]
    split
    case isTrue alike =>
      have solid' : isBlank d = false := by rw [← beq_iff_eq.1 alike, solid]
      simp [solid, solid']
    case isFalse => simp [solid]
  case h_2 => simp [solid]

theorem gaps_blanks {run text : List Char} (blank : OneOrMore isBlank run) (solid : Solid text) :
    gaps (run ++ text) = run :: gaps text := by
  have some : run ++ text ≠ [] := by simp [blank.1]
  obtain ⟨kind, run', rest, same, alike, ends, cut⟩ := runs_cons some
  have kind_blank : kind = true := by
    cases run with
    | nil => exact absurd rfl blank.1
    | cons c run =>
      cases run' with
      | nil => exact absurd rfl alike.1
      | cons d run' =>
        obtain ⟨rfl, _⟩ := List.cons.inj same
        simpa [blank.head] using alike.head.symm
  subst kind_blank
  obtain ⟨rfl, rfl⟩ := blanks_unique blank.2 (fun c member => by simpa using alike.2 c member) solid
    (fun c first => by simpa using ends c first) same
  unfold gaps
  have whole : run.all isBlank := List.all_eq_true.2 blank.2
  rw [cut, List.filter_cons, if_pos whole]

theorem gaps_append (text : List Char) {behind : List Char} (solid : Solid behind) :
    gaps (text ++ behind) = gaps text ++ gaps behind := by
  induction text using spaced_induction with
  | nil => rfl
  | char c text solid' ih => rw [List.cons_append, gaps_solid solid', gaps_solid solid', ih]
  | blanks run text blank solid' ih =>
    rw [List.append_assoc, gaps_blanks blank (Loose.solid_append solid' solid), gaps_blanks blank solid',
      ih, List.cons_append]

theorem gaps_run {run : List Char} (solid : ∀ c ∈ run, isBlank c = false) (text : List Char) :
    gaps (run ++ text) = gaps text := by
  induction run with
  | nil => rfl
  | cons c run ih =>
    obtain ⟨first, others⟩ := List.forall_mem_cons.1 solid
    rw [List.cons_append, gaps_solid first, ih others]

theorem Loose.eq_of_gaps {text taken : List Char} (loose : Loose text taken)
    (same : gaps text = gaps taken) : text = taken := by
  induction loose with
  | nil => rfl
  | char solid _ ih =>
    rw [gaps_solid solid, gaps_solid solid] at same
    rw [ih same]
  | blanks blank blank' solid loose ih =>
    rw [gaps_blanks blank solid, gaps_blanks blank' (loose.solid solid)] at same
    obtain ⟨rfl, others⟩ := List.cons.inj same
    rw [ih others]

/-! ## Splits as filled patterns -/

section Filled

variable {literal literal' text text' : List Char} {slots slots' : List (Placeholder × List Char)}
  {helds others : List (List Char)}

/-- What the placeholders take, each of the form of its kind. -/
abbrev Filling (slots : List (Placeholder × List Char)) (helds : List (List Char)) : Prop :=
  List.Forall₂ (fun slot held => slot.1.kind.Takes held) slots helds

theorem Placeholder.mark_solid (slot : Placeholder) : ∀ c ∈ slot.mark, isBlank c = false := by
  unfold mark
  split
  · intro c member
    rw [List.mem_singleton.1 member]
    decide
  · exact nofun

/-- A text splits along a pattern if it fits the pattern with what the placeholders take in their
places. -/
theorem splits_iff {policy : WhitespacePolicy} : Splits policy literal slots text helds ↔
    Filling slots helds ∧ policy.Fits (filled literal slots helds) text := by
  constructor
  · intro split
    induction split with
    | last fits => exact ⟨.nil, fits⟩
    | @slot literal before next held text slot slots helds fits takes _ ih =>
      obtain ⟨takings, fits'⟩ := ih
      refine ⟨.cons takes takings, ?_⟩
      cases policy with
      | strict =>
        obtain rfl : before = literal := fits
        obtain rfl : text = filled next slots helds := fits'
        rfl
      | tolerant =>
        have behind := (Loose.behind_run takes.blankless fits').behind_run slot.mark_solid
        exact Loose.append fits behind (slot.solid_mark takes _)
  · rintro ⟨takings, fits⟩
    induction takings generalizing literal text with
    | nil => exact .last fits
    | @cons slot held slots helds takes takings ih =>
      obtain ⟨slot, next⟩ := slot
      cases policy with
      | strict =>
        obtain rfl : text = filled literal ((slot, next) :: slots) (held :: helds) := fits
        exact Splits.of_filled (.cons takes takings)
      | tolerant =>
        obtain ⟨before, behind, fits_before, loose, rfl⟩ := Loose.cut (slot.solid_mark takes _) fits
        obtain ⟨unmarked, rfl, loose_unmarked⟩ := (loose_append slot.mark_solid).1 loose
        obtain ⟨further, rfl, loose_further⟩ := (loose_append takes.blankless).1 loose_unmarked
        exact .slot fits_before takes (ih loose_further)

theorem gaps_filled (takings : Filling slots helds) (literal : List Char) :
    gaps (filled literal slots helds) = gaps literal ++ slots.flatMap fun slot => gaps slot.2 := by
  induction takings generalizing literal with
  | nil => exact (List.append_nil _).symm
  | @cons slot held slots helds takes _ ih =>
    rw [filled, gaps_append literal (slot.1.solid_mark takes _), gaps_run slot.1.mark_solid,
      gaps_run takes.blankless, ih, List.flatMap_cons]

/-- The literals of two patterns differ only in their runs of white space, and the placeholders do
not differ. -/
def LooseSlots (slots slots' : List (Placeholder × List Char)) : Prop :=
  List.Forall₂ (fun slot slot' => slot.1 = slot'.1 ∧ Loose slot.2 slot'.2) slots slots'

theorem filled_loose (loose : Loose literal literal') (looseSlots : LooseSlots slots slots')
    (takings : Filling slots helds) :
    Loose (filled literal slots helds) (filled literal' slots' helds) := by
  induction looseSlots generalizing literal literal' helds with
  | nil =>
    cases takings
    exact loose
  | @cons slot slot' slots slots' both _ ih =>
    obtain ⟨slot, next⟩ := slot
    obtain ⟨slot', next'⟩ := slot'
    obtain ⟨rfl, loose'⟩ := both
    cases takings with
    | @cons _ held _ helds takes takings =>
      have behind := ((ih loose' takings).behind_run takes.blankless).behind_run slot.mark_solid
      exact loose.append behind (slot.solid_mark takes _)

theorem LooseSlots.filling (loose : LooseSlots slots slots') :
    Filling slots helds ↔ Filling slots' helds := by
  induction loose generalizing helds with
  | nil => exact Iff.rfl
  | cons both _ ih => simp only [List.forall₂_cons_left_iff, both.1, ih]

theorem LooseSlots.placeholders (loose : LooseSlots slots slots') :
    slots.map Prod.fst = slots'.map Prod.fst := by
  induction loose with
  | nil => rfl
  | cons both _ ih => rw [List.map_cons, List.map_cons, both.1, ih]

/-- A text that splits strictly has no split but its strict ones. -/
theorem strict_of_tolerant (strict : Splits .strict literal slots text helds)
    (tolerant : Splits .tolerant literal slots text others) :
    Splits .strict literal slots text others := by
  obtain ⟨takings, rfl⟩ := splits_iff.1 strict
  obtain ⟨takings', loose⟩ := splits_iff.1 tolerant
  refine splits_iff.2 ⟨takings', (Loose.eq_of_gaps loose ?_).symm⟩
  rw [gaps_filled takings', gaps_filled takings]

theorem tolerant_of_strict (strict : Splits .strict literal slots text helds) :
    Splits .tolerant literal slots text helds := by
  obtain ⟨takings, fits⟩ := splits_iff.1 strict
  exact splits_iff.2 ⟨takings, fits.loose⟩

theorem splits_loose (loose : Loose literal literal') (looseSlots : LooseSlots slots slots')
    (loose_text : Loose text text') : Splits .tolerant literal slots text helds ↔
      Splits .tolerant literal' slots' text' helds := by
  rw [splits_iff, splits_iff, looseSlots.filling]
  refine and_congr_right fun takings => ?_
  have patterns := filled_loose loose looseSlots (looseSlots.filling.2 takings)
  exact ⟨fun fits => patterns.symm.trans (fits.trans loose_text),
    fun fits => patterns.trans (fits.trans loose_text.symm)⟩

end Filled

/-! ## The longest split -/

/-- Of two splits of one text each of which has no shorter texts than the other, both are the same. -/
theorem Splits.eq_of_noShorter {policy : WhitespacePolicy} {literal text : List Char}
    {slots : List (Placeholder × List Char)} {helds others : List (List Char)}
    (split : Splits policy literal slots text helds) (split' : Splits policy literal slots text others)
    (long : NoShorter helds others) (long' : NoShorter others helds) : helds = others := by
  induction split generalizing others with
  | last =>
    cases split'
    rfl
  | @slot literal before next held text slot slots helds fits takes further ih =>
    generalize whole : before ++ (slot.mark ++ (held ++ text)) = given at split'
    cases split' with
    | @slot _ before' _ held' text' _ _ others fits' takes' further' =>
      obtain ⟨-, behind⟩ := fits.unique fits' (slot.solid_mark takes _) (slot.solid_mark takes' _) whole
      have lengths : held.length = held'.length ∧ NoShorter helds others ∧ NoShorter others helds := by
        rcases long with shorter | ⟨same, long⟩ <;> rcases long' with shorter' | ⟨same', long'⟩
        · omega
        · omega
        · omega
        · exact ⟨same', long, long'⟩
      obtain ⟨rfl, rfl⟩ := List.append_inj (List.append_cancel_left behind) lengths.1
      rw [ih further' lengths.2.1 lengths.2.2]

theorem Longest.unique {policy : WhitespacePolicy} {literal text : List Char}
    {slots : List (Placeholder × List Char)} {helds others : List (List Char)}
    (longest : Longest policy literal slots text helds)
    (longest' : Longest policy literal slots text others) : helds = others :=
  longest.1.eq_of_noShorter longest'.1 (longest.2 others longest'.1) (longest'.2 helds longest.1)

theorem PlaceholderPattern.match?_congr {pattern pattern' : PlaceholderPattern}
    {literal literal' : List Char} {slots slots' : List (Placeholder × List Char)}
    {text text' : String} (parts : pattern.parts = PatternPart.interleave literal slots)
    (parts' : pattern'.parts = PatternPart.interleave literal' slots')
    (same : slots.map Prod.fst = slots'.map Prod.fst)
    (splits : ∀ helds, Splits pattern.policy literal slots text.toList helds ↔
      Splits pattern'.policy literal' slots' text'.toList helds) :
    pattern.match? text = pattern'.match? text' := by
  have values (slots : List (Placeholder × List Char)) (helds : List (List Char)) :
      (slots.zip helds).mapM (fun taken => coerce taken.1.1.kind taken.2) =
        ((slots.map Prod.fst).zip helds).mapM fun taken => coerce taken.1.kind taken.2 := by
    rw [List.zip_map_left, List.mapM_map]
    rfl
  rcases match?_interleave parts text with ⟨missed, unsplit⟩ | ⟨helds, longest, matched⟩ <;>
    rcases match?_interleave parts' text' with ⟨missed', unsplit'⟩ | ⟨others, longest', matched'⟩
  · rw [missed, missed']
  · exact absurd ((splits others).2 longest'.1) (unsplit others)
  · exact absurd ((splits helds).1 longest.1) (unsplit' helds)
  · have longest'' : Longest pattern'.policy literal' slots' text'.toList helds :=
      ⟨(splits helds).1 longest.1, fun others split => longest.2 others ((splits others).2 split)⟩
    obtain rfl := longest''.unique longest'
    rw [matched, matched', values slots, values slots', same]

/-! ## White space in patterns -/

theorem Braceless.loose {text taken : List Char} (bare : Braceless text) (loose : Loose text taken) :
    Braceless taken := by
  induction loose with
  | nil => exact bare
  | char _ _ ih =>
    obtain ⟨first, others⟩ := List.forall_mem_cons.1 bare
    exact List.forall_mem_cons.2 ⟨first, ih others⟩
  | @blanks run run' _ _ _ blank' _ _ ih =>
    have run_bare : Braceless run' := by
      intro c member
      constructor <;> rintro rfl <;> exact absurd (blank'.2 _ member) (by decide)
    exact List.forall_mem_append.2 ⟨run_bare, ih (List.forall_mem_append.1 bare).2⟩

theorem Tokenless.loose {text taken : List Char} (plain : Tokenless text) (loose : Loose text taken) :
    Tokenless taken := by
  rintro content bare ⟨before, behind, rfl⟩
  have opening : Solid ('\x7b' :: (content ++ '\x7d' :: behind)) := by
    rintro _ ⟨⟩
    decide
  have closing : Solid ('\x7d' :: behind) := by
    rintro _ ⟨⟩
    decide
  have backward : Loose (before ++ '\x7b' :: (content ++ '\x7d' :: behind)) text := by
    simpa using loose.symm
  obtain ⟨before', further, -, loose_opened, rfl⟩ := Loose.cut opening backward
  obtain ⟨opened, rfl, loose_inside⟩ := (loose_cons (by decide)).1 loose_opened
  obtain ⟨content', further, loose_content, loose_closed, rfl⟩ := Loose.cut closing loose_inside
  obtain ⟨behind', rfl, -⟩ := (loose_cons (by decide)).1 loose_closed
  exact plain content' (bare.loose loose_content) ⟨before', behind', by simp⟩

theorem Loose.dollar {text taken : List Char} (loose : Loose text taken) (dollar : ['$'] <:+ taken) :
    ['$'] <:+ text := by
  obtain ⟨before, rfl⟩ := dollar
  have solid : Solid ['$'] := by
    rintro _ ⟨⟩
    decide
  obtain ⟨before', last, -, loose_last, rfl⟩ := Loose.cut solid loose.symm
  obtain ⟨rest, rfl, loose_rest⟩ := (loose_cons (by decide)).1 loose_last
  rw [loose_nil.1 loose_rest]
  exact List.suffix_append before' _

/-- A pattern in whose literals white space takes the place of white space. -/
inductive Respaced : List Char → List Char → Prop
  | last {literal literal' : List Char} (plain : Tokenless literal) (loose : Loose literal literal') :
      Respaced literal literal'
  | token {literal literal' text text' : List Char} {token : Token} (plain : Tokenless literal)
      (bare : Braceless token.content) (marked : ['$'] <:+ literal → token.amount)
      (loose : Loose literal literal') (further : Respaced text text') :
      Respaced (literal ++ (token.written ++ text)) (literal' ++ (token.written ++ text'))

theorem Respaced.scanned {text text' : List Char} (respaced : Respaced text text') :
    ∃ literal literal' tokens tokens', Scanned text literal tokens ∧ Scanned text' literal' tokens' ∧
      Loose literal literal' ∧
      List.Forall₂ (fun found found' => found.1 = found'.1 ∧ Loose found.2 found'.2) tokens tokens' := by
  induction respaced with
  | last plain loose => exact ⟨_, _, [], [], .last plain, .last (plain.loose loose), loose, .nil⟩
  | token plain bare marked loose _ ih =>
    obtain ⟨next, next', tokens, tokens', scanned, scanned', loose_next, others⟩ := ih
    exact ⟨_, _, _, _, .token plain bare marked scanned,
      .token (plain.loose loose) bare (fun dollar => marked (loose.dollar dollar)) scanned', loose,
      .cons ⟨rfl, loose_next⟩ others⟩

theorem Respaced.divided {text text' literal : List Char} {slots : List (Placeholder × List Char)}
    (respaced : Respaced text text') (divided : Divided text literal slots) :
    ∃ literal' slots', Divided text' literal' slots' ∧ Loose literal literal' ∧
      LooseSlots slots slots' := by
  obtain ⟨_, literal', tokens, tokens', scanned, scanned', loose, others⟩ := respaced.scanned
  obtain ⟨_, scanned'', names⟩ := divided_iff.1 divided
  obtain ⟨rfl, rfl⟩ := scanned.unique scanned''
  have named : ∃ slots', List.Forall₂ Token.NamesBefore tokens' slots' ∧ LooseSlots slots slots' := by
    clear scanned scanned' scanned'' divided
    induction others generalizing slots with
    | nil =>
      cases names
      exact ⟨[], .nil, .nil⟩
    | @cons found found' tokens tokens' both _ ih =>
      cases names with
      | @cons _ slot _ slots first names =>
        obtain ⟨slots', names', loose'⟩ := ih names
        refine ⟨(slot.1, found'.2) :: slots', .cons ⟨both.1 ▸ first.1, rfl⟩ names', .cons ⟨rfl, ?_⟩ loose'⟩
        exact first.2 ▸ both.2
  obtain ⟨slots', names', loose'⟩ := named
  exact ⟨literal', slots', divided_iff.2 ⟨tokens', scanned', names'⟩, loose, loose'⟩

/-! ## The policies compared -/

/-- A pattern without unsupported tokens compiles under both policies. Where the strict pattern
matches, the tolerant one matches with the same parameters. What the tolerant one answers does not
depend on what the runs of white space are made of, in the text or in the literals of the pattern,
and it is what the strict one answers on some text that differs from the given one in that only. -/
theorem policies_agree {source : String} {literal : List Char} {tokens : List (Token × List Char)}
    (scanned : Scanned source.toList literal tokens)
    (supported : ∀ found ∈ tokens, ¬found.1.Unsupported) :
    ∃ strict tolerant, StepPattern.compile (.text source) (.text "strict") = .ok strict ∧
      StepPattern.compile (.text source) (.text "tolerant") = .ok tolerant ∧
      (∀ text, strict.match? text ≠ .ok none → tolerant.match? text = strict.match? text) ∧
      (∀ text text' : String, Loose text.toList text'.toList →
        tolerant.match? text' = tolerant.match? text) ∧
      (∀ source' : String, Respaced source.toList source'.toList → ∃ tolerant',
        StepPattern.compile (.text source') (.text "tolerant") = .ok tolerant' ∧
          ∀ text, tolerant'.match? text = tolerant.match? text) ∧
      ∀ text result, result ≠ .ok none → (tolerant.match? text = result ↔
        ∃ text' : String, Loose text.toList text'.toList ∧ strict.match? text' = result) := by
  obtain ⟨slots, names⟩ := named_iff_supported.2 supported
  have divided : Divided source.toList literal slots := divided_iff.2 ⟨tokens, scanned, names⟩
  let pattern (policy : WhitespacePolicy) : PlaceholderPattern :=
    ⟨source, policy, PatternPart.interleave literal slots⟩
  have parts (policy : WhitespacePolicy) :
      (pattern policy).parts = PatternPart.interleave literal slots := rfl
  have slots_refl : LooseSlots slots slots := List.forall₂_same.2 fun slot _ => ⟨rfl, .refl slot.2⟩
  have from_strict (text : String) (matched : (pattern .strict).match? text ≠ .ok none) :
      (pattern .tolerant).match? text = (pattern .strict).match? text := by
    obtain ⟨helds, split⟩ := (PlaceholderPattern.match?_ne_none (parts .strict)).1 matched
    apply PlaceholderPattern.match?_congr (parts .tolerant) (parts .strict) rfl
    exact fun others => ⟨strict_of_tolerant split, tolerant_of_strict⟩
  have blind (text text' : String) (loose : Loose text.toList text'.toList) :
      (pattern .tolerant).match? text' = (pattern .tolerant).match? text := by
    apply PlaceholderPattern.match?_congr (parts .tolerant) (parts .tolerant) rfl
    exact fun helds => (splits_loose (.refl literal) slots_refl loose).symm
  refine ⟨.placeholders (pattern .strict), .placeholders (pattern .tolerant),
    StepPattern.compile_divided divided .strict, StepPattern.compile_divided divided .tolerant,
    from_strict, blind, fun source' respaced => ?_, fun text result some => ⟨fun matched => ?_, ?_⟩⟩
  · obtain ⟨literal', slots', divided', loose, loose'⟩ := respaced.divided divided
    refine ⟨_, StepPattern.compile_divided divided' .tolerant, fun text => ?_⟩
    apply PlaceholderPattern.match?_congr rfl (parts .tolerant) loose'.placeholders.symm
    exact fun helds => (splits_loose loose loose' (.refl text.toList)).symm
  · -- The text that the strict pattern matches is the pattern filled with what the tolerant one took.
    have matched' : (pattern .tolerant).match? text ≠ .ok none := fun missed =>
      some (matched.symm.trans missed)
    obtain ⟨helds, split⟩ := (PlaceholderPattern.match?_ne_none (parts .tolerant)).1 matched'
    obtain ⟨takings, loose⟩ := splits_iff.1 split
    let text' := String.ofList (filled literal slots helds)
    have same : text'.toList = filled literal slots helds := String.toList_ofList
    have loose' : Loose text.toList text'.toList := same ▸ loose.symm
    have strictly := (PlaceholderPattern.match?_ne_none (parts .strict)).2
      ⟨helds, same ▸ Splits.of_filled takings⟩
    refine ⟨text', loose', ?_⟩
    rw [← matched]
    exact (from_strict text' strictly).symm.trans (blind text text' loose')
  · rintro ⟨text', loose, matched⟩
    have matched' : (pattern .strict).match? text' = result := matched
    have same := from_strict text' (matched' ▸ some)
    exact (blind text text' loose).symm.trans (same.trans matched')

theorem policies_agree_wings : ∃ strict tolerant,
    StepPattern.compile (.text "fold $\x7bint\x7d wings") (.text "strict") = .ok strict ∧
    StepPattern.compile (.text "fold $\x7bint\x7d wings") (.text "tolerant") = .ok tolerant ∧
    tolerant.match? "fold $7 wings" = strict.match? "fold $7 wings" ∧
    tolerant.match? "fold \t$7\nwings" = strict.match? "fold $7 wings" ∧
    strict.match? "fold $7 wings" = .ok (some [.int 7]) := by
  have last : Scanned " wings".toList " wings".toList [] := .last (.of_not_mem (by decide))
  have scanned : Scanned ("fold ".toList ++ (Token.written ⟨true, "int".toList⟩ ++ " wings".toList))
      "fold ".toList [(⟨true, "int".toList⟩, " wings".toList)] :=
    .token (.of_not_mem (by decide)) (.of_not_mem (by decide) (by decide)) (fun _ => rfl) last
  have supported : ∀ found ∈ [((⟨true, "int".toList⟩ : Token), " wings".toList)],
      ¬found.1.Unsupported := by
    intro found member
    rw [List.mem_singleton.1 member]
    have names : Token.Names ⟨true, "int".toList⟩ ⟨.int, true⟩ := ⟨rfl, by decide, by decide⟩
    exact names.supported
  have source : "fold $\x7bint\x7d wings".toList =
    "fold ".toList ++ (Token.written ⟨true, "int".toList⟩ ++ " wings".toList) := by decide
  obtain ⟨strict, tolerant, compiled, compiled', from_strict, blind, -⟩ :=
    policies_agree (source ▸ scanned) supported
  have divided : Divided "fold $\x7bint\x7d wings".toList "fold ".toList
      [(⟨.int, true⟩, " wings".toList)] :=
    divided_iff.2 ⟨_, source ▸ scanned, .cons ⟨⟨rfl, by decide, by decide⟩, rfl⟩ .nil⟩
  have matched : strict.match? "fold $7 wings" = .ok (some [.int 7]) := by
    have spells : Spells "7".toList 7 := ⟨by decide, [7], by decide, by decide⟩
    exact (match_of_filled compiled).2 _ _ divided nofun [("7".toList, .int 7)]
      (.cons (.int .none spells (by decide)) .nil)
  have same := from_strict "fold $7 wings" (by rw [matched]; nofun)
  have wings : Loose ([' '] ++ "wings".toList) (['\n'] ++ "wings".toList) :=
    .blanks ⟨by decide, List.all_eq_true.1 (by decide)⟩ ⟨by decide, List.all_eq_true.1 (by decide)⟩
      (by rintro _ ⟨⟩; decide) (.refl _)
  have amount : Loose ("$7".toList ++ " wings".toList) ("$7".toList ++ "\nwings".toList) :=
    wings.behind_run (forall_false_of_all (by decide))
  have spaced : Loose ([' '] ++ "$7 wings".toList) ([' ', '\t'] ++ "$7\nwings".toList) :=
    .blanks ⟨by decide, List.all_eq_true.1 (by decide)⟩ ⟨by decide, List.all_eq_true.1 (by decide)⟩
      (by rintro _ ⟨⟩; decide) amount
  have fold : ∀ c ∈ "fold".toList, isBlank c = false := forall_false_of_all (by decide)
  have loose : Loose "fold $7 wings".toList "fold \t$7\nwings".toList := spaced.behind_run fold
  exact ⟨strict, tolerant, compiled, compiled', same, (blind _ _ loose).trans same, matched⟩

end FeatureRunner
