import FeatureRunner.Proofs.Pattern.Splits
import FeatureRunner.Proofs.Pattern.Tokens
import Mathlib.Data.List.Forall2

/-!
What patterns are divided into. A pattern is divided into literals and placeholders if each of its
tokens names a placeholder, and then in one way only; otherwise it has a token that names none.
-/

namespace FeatureRunner
open FeatureRunner.Text

theorem mapM_cons_ok {α β : Type} {f : α → Except Fault β} {a : α} {list : List α} {results : List β}
    (all : (a :: list).mapM f = .ok results) :
    ∃ b rest, f a = .ok b ∧ list.mapM f = .ok rest ∧ results = b :: rest := by
  rw [List.mapM_cons] at all
  cases first : f a with
  | error fault => rw [first] at all; cases all
  | ok b =>
    cases others : list.mapM f with
    | error fault => rw [first, others] at all; cases all
    | ok rest =>
      rw [first, others] at all
      cases all
      exact ⟨b, rest, rfl, rfl, rfl⟩

theorem mapM_ok_iff {α β : Type} {f : α → Except Fault β} {list : List α} {results : List β} :
    list.mapM f = .ok results ↔ List.Forall₂ (fun a b => f a = .ok b) list results := by
  constructor
  · intro all
    induction list generalizing results with
    | nil =>
      cases all
      exact .nil
    | cons a list ih =>
      obtain ⟨b, rest, first, others, rfl⟩ := mapM_cons_ok all
      exact .cons first (ih others)
  · intro each
    induction each with
    | nil => rfl
    | cons first _ ih =>
      rw [List.mapM_cons, first, ih]
      rfl

theorem bind_eq_ok {α β : Type} {answer : Except Fault α} {further : α → Except Fault β} {value : β} :
    answer >>= further = .ok value ↔ ∃ middle, answer = .ok middle ∧ further middle = .ok value := by
  cases answer <;> simp [Bind.bind, Except.bind]

theorem bind_eq_error {α β : Type} {answer : Except Fault α} {further : α → Except Fault β}
    {fault : Fault} : (answer >>= further) = .error fault ↔
      answer = .error fault ∨ ∃ a, answer = .ok a ∧ further a = .error fault := by
  cases answer <;> simp [Bind.bind, Except.bind]

theorem mapM_cons_eq_error {α β : Type} {f : α → Except Fault β} {a : α} {list : List α}
    {fault : Fault} : (a :: list).mapM f = .error fault ↔
      f a = .error fault ∨ (∃ b, f a = .ok b) ∧ list.mapM f = .error fault := by
  simp [List.mapM_cons, bind_eq_error, Pure.pure, Except.pure]

/-- Where not all succeed, the first that does not has failed. -/
theorem mapM_eq_error {α β : Type} {f : α → Except Fault β} {list : List α} {fault : Fault} :
    list.mapM f = .error fault ↔ ∃ earlier a later, list = earlier ++ a :: later ∧
      (∀ other ∈ earlier, ∃ b, f other = .ok b) ∧ f a = .error fault := by
  induction list with
  | nil =>
    constructor
    · nofun
    · rintro ⟨earlier, a, later, same, -⟩
      simp at same
  | cons a list ih =>
    rw [mapM_cons_eq_error, ih]
    constructor
    · rintro (failed | ⟨first, earlier, a', later, rfl, succeeded, failed⟩)
      · exact ⟨[], a, list, rfl, nofun, failed⟩
      · exact ⟨a :: earlier, a', later, rfl, List.forall_mem_cons.2 ⟨first, succeeded⟩, failed⟩
    · rintro ⟨earlier, a', later, same, succeeded, failed⟩
      cases earlier with
      | nil =>
        obtain ⟨rfl, rfl⟩ := List.cons.inj same
        exact .inl failed
      | cons _ earlier =>
        obtain ⟨rfl, rfl⟩ := List.cons.inj same
        obtain ⟨first, succeeded⟩ := List.forall_mem_cons.1 succeeded
        exact .inr ⟨first, earlier, a', later, rfl, succeeded, failed⟩

theorem mapM_error {α β : Type} {f : α → Except Fault β} {list : List α} {fault : Fault}
    (failed : list.mapM f = .error fault) : ∃ a ∈ list, f a = .error fault := by
  obtain ⟨earlier, a, later, rfl, -, fails⟩ := mapM_eq_error.1 failed
  exact ⟨a, by simp, fails⟩

/-! ## Tokens that name placeholders -/

theorem PlaceholderKind.ofName?_eq_some {name : String} {kind : PlaceholderKind} :
    ofName? name = some kind ↔ name = kind.name := by
  constructor
  · intro known
    unfold ofName? at known
    split at known <;> cases known <;> rfl
  · rintro rfl
    cases kind <;> rfl

theorem PlaceholderKind.name_injective {kind kind' : PlaceholderKind} (same : kind.name = kind'.name) :
    kind = kind' := by
  have known := ofName?_eq_some.2 same
  rw [ofName?_eq_some.2 rfl] at known
  exact Option.some.inj known

namespace Token

/-- A token is in order if its braces hold the name of a kind, and a number after a dollar sign. -/
structure Names (token : Token) (slot : Placeholder) : Prop where
  amount : slot.amount = token.amount
  named : strip token.content = slot.kind.name.toList
  numeric : slot.amount → slot.kind ≠ .word

/-- A token that names no kind of placeholder, or words after a dollar sign. -/
def Unsupported (token : Token) : Prop :=
  (∀ kind : PlaceholderKind, strip token.content ≠ kind.name.toList) ∨
    token.amount ∧ strip token.content = PlaceholderKind.word.name.toList

variable {token : Token} {slot slot' : Placeholder}

theorem Names.mark (names : token.Names slot) : slot.mark = token.mark := by
  unfold Placeholder.mark Token.mark
  rw [names.amount]

theorem Names.unique (names : token.Names slot) (names' : token.Names slot') : slot = slot' := by
  have kinds : slot.kind = slot'.kind := by
    apply PlaceholderKind.name_injective
    rw [← String.toList_inj, ← names.named, names'.named]
  have amounts := names.amount.trans names'.amount.symm
  cases slot
  cases slot'
  cases kinds
  cases amounts
  rfl

theorem Names.supported (names : token.Names slot) : ¬token.Unsupported := by
  rintro (other | ⟨marked, word⟩)
  · exact other slot.kind names.named
  · apply names.numeric (names.amount.trans marked)
    apply PlaceholderKind.name_injective
    rw [← String.toList_inj, ← names.named, word]

theorem names_or_unsupported (token : Token) : (∃ slot, token.Names slot) ∨ token.Unsupported := by
  by_cases known : ∃ kind : PlaceholderKind, strip token.content = kind.name.toList
  · obtain ⟨kind, named⟩ := known
    by_cases word : token.amount ∧ kind = .word
    · exact .inr (.inr ⟨word.1, word.2 ▸ named⟩)
    · exact .inl ⟨⟨kind, token.amount⟩, rfl, named, fun marked same => word ⟨marked, same⟩⟩
  · exact .inr (.inl (not_exists.1 known))

end Token

/-- What becomes of a token: the placeholder that it names, or a fault of compilation. -/
theorem Piece.resolve_token (pattern : String) (token : Token) :
    (∃ slot, token.Names slot ∧
      resolve pattern (.token token.amount token.content) = .ok (.placeholder slot)) ∨
    token.Unsupported ∧ ∃ fault,
      resolve pattern (.token token.amount token.content) = .error fault ∧
        fault.kind = .patternCompile := by
  unfold resolve
  dsimp only
  cases known : PlaceholderKind.ofName? (String.ofList (strip token.content)) with
  | none =>
    refine .inr ⟨.inl fun kind named => ?_, _, rfl, rfl⟩
    rw [named, String.ofList_toList, PlaceholderKind.ofName?_eq_some.2 rfl] at known
    cases known
  | some kind =>
    have named : strip token.content = kind.name.toList := by
      rw [← PlaceholderKind.ofName?_eq_some.1 known, String.toList_ofList]
    by_cases word : (token.amount && kind == .word) = true
    · obtain ⟨marked, same⟩ := Bool.and_eq_true_iff.1 word
      refine .inr ⟨.inr ⟨marked, eq_of_beq same ▸ named⟩, _, if_pos word, rfl⟩
    · refine .inl ⟨⟨kind, token.amount⟩, ⟨rfl, named, fun marked same => ?_⟩, if_neg word⟩
      exact word (Bool.and_eq_true_iff.2 ⟨marked, beq_iff_eq.2 same⟩)

theorem Piece.resolve_token_eq_ok {pattern : String} {token : Token} {part : PatternPart} :
    resolve pattern (.token token.amount token.content) = .ok part ↔
      ∃ slot, token.Names slot ∧ part = .placeholder slot := by
  rcases resolve_token pattern token with ⟨slot, names, resolved⟩ | ⟨unsupported, fault, failed, _⟩
  · rw [resolved]
    constructor
    · rintro ⟨⟩
      exact ⟨slot, names, rfl⟩
    · rintro ⟨slot', names', rfl⟩
      rw [names.unique names']
  · rw [failed]
    constructor
    · rintro ⟨⟩
    · rintro ⟨slot, names, _⟩
      exact absurd unsupported names.supported

/-! ## Divisions -/

/-- A token and the literal behind it, as they are found and as they are meant. -/
def Token.NamesBefore (found : Token × List Char) (slot : Placeholder × List Char) : Prop :=
  found.1.Names slot.1 ∧ found.2 = slot.2

theorem divided_iff {text literal : List Char} {slots : List (Placeholder × List Char)} :
    Divided text literal slots ↔
      ∃ tokens, Scanned text literal tokens ∧ List.Forall₂ Token.NamesBefore tokens slots := by
  constructor
  · intro divided
    induction divided with
    | last plain => exact ⟨[], .last plain, .nil⟩
    | @slot literal content next text slot slots plain bare named marked numeric _ ih =>
      obtain ⟨tokens, scanned, names⟩ := ih
      let token : Token := ⟨slot.amount, content⟩
      have token_names : token.Names slot := ⟨rfl, named, numeric⟩
      refine ⟨(token, next) :: tokens, ?_, .cons ⟨token_names, rfl⟩ names⟩
      have whole : slot.mark ++ ('\x7b' :: (content ++ '\x7d' :: text)) = token.written ++ text := by
        simp [Token.written, token_names.mark, token]
      rw [whole]
      exact .token plain bare marked scanned
  · rintro ⟨tokens, scanned, names⟩
    induction scanned generalizing slots with
    | last plain =>
      cases names
      exact .last plain
    | @token literal next text token tokens plain bare marked _ ih =>
      cases names with
      | @cons _ slot _ slots first names =>
        obtain ⟨slot, next'⟩ := slot
        obtain ⟨token_names, rfl⟩ := first
        have whole : token.written ++ text =
            slot.mark ++ ('\x7b' :: (token.content ++ '\x7d' :: text)) := by
          simp [Token.written, Token.Names.mark token_names]
        rw [whole]
        apply Divided.slot plain bare token_names.named _ token_names.numeric (ih names)
        intro dollar
        rw [token_names.amount]
        exact marked dollar

theorem named_unique {tokens : List (Token × List Char)} {slots slots' : List (Placeholder × List Char)}
    (names : List.Forall₂ Token.NamesBefore tokens slots)
    (names' : List.Forall₂ Token.NamesBefore tokens slots') : slots = slots' := by
  induction names generalizing slots' with
  | nil =>
    cases names'
    rfl
  | cons first _ ih =>
    cases names' with
    | cons first' names' =>
      rw [ih names', Prod.ext (first.1.unique first'.1) (first.2.symm.trans first'.2)]

theorem named_iff_supported {tokens : List (Token × List Char)} :
    (∃ slots, List.Forall₂ Token.NamesBefore tokens slots) ↔
      ∀ found ∈ tokens, ¬found.1.Unsupported := by
  induction tokens with
  | nil => exact ⟨fun _ => nofun, fun _ => ⟨[], .nil⟩⟩
  | cons found tokens ih =>
    rw [List.forall_mem_cons, ← ih]
    constructor
    · rintro ⟨_, _ | ⟨first, names⟩⟩
      exact ⟨first.1.supported, _, names⟩
    · rintro ⟨first, slots, names⟩
      obtain ⟨slot, named⟩ := found.1.names_or_unsupported.resolve_right first
      exact ⟨(slot, found.2) :: slots, .cons ⟨named, rfl⟩ names⟩

theorem Divided.unique {text literal literal' : List Char}
    {slots slots' : List (Placeholder × List Char)} (divided : Divided text literal slots)
    (divided' : Divided text literal' slots') : literal = literal' ∧ slots = slots' := by
  obtain ⟨tokens, scanned, names⟩ := divided_iff.1 divided
  obtain ⟨tokens', scanned', names'⟩ := divided_iff.1 divided'
  obtain ⟨rfl, rfl⟩ := scanned.unique scanned'
  exact ⟨rfl, named_unique names names'⟩

theorem Piece.resolve_interleave {pattern : String} {literal : List Char}
    {tokens : List (Token × List Char)} {parts : List PatternPart} :
    (interleave literal tokens).mapM (resolve pattern) = .ok parts ↔
      ∃ slots, List.Forall₂ Token.NamesBefore tokens slots ∧
        parts = PatternPart.interleave literal slots := by
  rw [mapM_ok_iff, interleave]
  induction tokens generalizing literal parts with
  | nil =>
    constructor
    · rintro (_ | ⟨⟨⟩, ⟨⟩⟩)
      exact ⟨[], .nil, rfl⟩
    · rintro ⟨_, ⟨⟩, rfl⟩
      exact .cons rfl .nil
  | cons found tokens ih =>
    obtain ⟨token, next⟩ := found
    constructor
    · rintro (_ | ⟨⟨⟩, _ | ⟨named, further⟩⟩)
      obtain ⟨slot, names, rfl⟩ := resolve_token_eq_ok.1 named
      obtain ⟨slots, others, rfl⟩ := ih.1 further
      exact ⟨(slot, next) :: slots, .cons ⟨names, rfl⟩ others, rfl⟩
    · rintro ⟨_, _ | ⟨⟨names, rfl⟩, others⟩, rfl⟩
      exact .cons rfl (.cons (resolve_token_eq_ok.2 ⟨_, names, rfl⟩) (ih.2 ⟨_, others, rfl⟩))

/-- The pieces of a pattern are in order if it is divided into them. -/
theorem PatternPart.ofPattern_eq_ok {pattern : String} {parts : List PatternPart} :
    ofPattern pattern = .ok parts ↔ ∃ literal slots, Divided pattern.toList literal slots ∧
      parts = interleave literal slots := by
  obtain ⟨literal, tokens, scanned, pieces⟩ := Scanned.of_cut pattern
  unfold ofPattern
  rw [pieces, Piece.resolve_interleave]
  constructor
  · rintro ⟨slots, names, rfl⟩
    exact ⟨literal, slots, divided_iff.2 ⟨tokens, scanned, names⟩, rfl⟩
  · rintro ⟨literal', slots, divided, rfl⟩
    obtain ⟨tokens', scanned', names⟩ := divided_iff.1 divided
    obtain ⟨rfl, rfl⟩ := scanned.unique scanned'
    exact ⟨slots, names, rfl⟩

/-- Otherwise one of its tokens is not, and that is a fault of compilation. -/
theorem PatternPart.ofPattern_error {pattern : String} {fault : Fault} {literal : List Char}
    {tokens : List (Token × List Char)} (scanned : Scanned pattern.toList literal tokens)
    (failed : ofPattern pattern = .error fault) :
    (∃ found ∈ tokens, found.1.Unsupported) ∧ fault.kind = .patternCompile := by
  obtain ⟨literal', tokens', scanned', pieces⟩ := Scanned.of_cut pattern
  obtain ⟨rfl, rfl⟩ := scanned.unique scanned'
  unfold ofPattern at failed
  rw [pieces, Piece.interleave] at failed
  obtain ⟨piece, member, fails⟩ := mapM_error failed
  rcases List.mem_cons.1 member with rfl | member
  · cases fails
  · obtain ⟨⟨token, next⟩, found, among⟩ := List.mem_flatMap.1 member
    rcases List.mem_pair.1 among with rfl | rfl
    · rcases Piece.resolve_token pattern token with ⟨slot, _, resolved⟩ | ⟨unsupported, other, failed', kind⟩
      · cases resolved.symm.trans fails
      · cases failed'.symm.trans fails
        exact ⟨⟨_, found, unsupported⟩, kind⟩
    · cases fails

end FeatureRunner
