import FeatureRunner.Proofs.Pattern.Lengths

/-!
How patterns are scanned. Every pattern is a literal, and then each token with the literal behind
it, in one way only; the pieces into which it is cut are these.
-/

namespace FeatureRunner
open FeatureRunner.Text

/-- A pair of braces with what stands between them, and whether a dollar sign belongs to it. -/
structure Token where
  amount : Bool
  content : List Char

namespace Token

def mark (token : Token) : List Char :=
  if token.amount then ['$'] else []

def written (token : Token) : List Char :=
  token.mark ++ '\x7b' :: (token.content ++ ['\x7d'])

end Token

/-- A pattern is scanned as a literal, and then each token with the literal behind it. A dollar sign
directly before a token belongs to the token. -/
inductive Scanned : List Char → List Char → List (Token × List Char) → Prop
  | last {literal : List Char} (plain : Tokenless literal) : Scanned literal literal []
  | token {literal next text : List Char} {token : Token} {tokens : List (Token × List Char)}
      (plain : Tokenless literal) (bare : Braceless token.content)
      (marked : ['$'] <:+ literal → token.amount) (further : Scanned text next tokens) :
      Scanned (literal ++ (token.written ++ text)) literal ((token, next) :: tokens)

theorem Braceless.of_not_mem {text : List Char} (opening : '\x7b' ∉ text) (closing : '\x7d' ∉ text) :
    Braceless text := by
  intro c member
  constructor <;> rintro rfl <;> contradiction

theorem Tokenless.of_not_mem {text : List Char} (opening : '\x7b' ∉ text) : Tokenless text := by
  intro content _ token
  exact opening (token.subset List.mem_cons_self)

/-- A brace stands open at the end of a text. -/
def Unclosed (text : List Char) : Prop :=
  ∃ content, Braceless content ∧ '\x7b' :: content <:+ text

theorem Tokenless.snoc {text : List Char} {c : Char} (plain : Tokenless text)
    (closing : c = '\x7d' → ¬Unclosed text) : Tokenless (text ++ [c]) := by
  intro content bare token
  rw [List.infix_concat_iff] at token
  rcases token with ⟨before, same⟩ | token
  · rw [← List.cons_append, ← List.append_assoc] at same
    obtain ⟨whole, last⟩ := List.append_inj' same rfl
    exact closing (List.cons.inj last).1.symm ⟨content, bare, before, whole⟩
  · exact plain content bare token

theorem not_unclosed_snoc {text : List Char} {c : Char} (closed : ¬Unclosed text)
    (other : c ≠ '\x7b') : ¬Unclosed (text ++ [c]) := by
  rintro ⟨content, bare, before, same⟩
  rcases List.eq_nil_or_concat content with rfl | ⟨content, d, rfl⟩
  · exact other (List.cons.inj (List.append_inj' same rfl).2).1.symm
  · rw [List.concat_eq_append, ← List.cons_append, ← List.append_assoc] at same
    obtain ⟨whole, _⟩ := List.append_inj' same rfl
    exact closed ⟨content, fun c member => bare c (by simp [member]), before, whole⟩

/-! ## Every pattern is scanned -/

/-- What has been read since the last token. -/
def Piece.written (before : List Char) : Option (Bool × List Char) → List Char
  | none => before.reverse
  | some (amount, content) => (unclosed before amount content).reverse

/-- The text that has been read since the last token holds no other, and a brace is open only as
it is noted. -/
inductive Piece.Cutting : List Char → Option (Bool × List Char) → Prop
  | literal {before : List Char} (plain : Tokenless (written before none))
      (closed : ¬Unclosed before.reverse) : Cutting before none
  | token {before content : List Char} {amount : Bool}
      (plain : Tokenless (written before (some (amount, content)))) (bare : Braceless content)
      (marked : ['$'] <:+ before.reverse → amount) : Cutting before (some (amount, content))

theorem Piece.Cutting.empty : Cutting [] none := by
  apply Cutting.literal
  · intro _ _ token
    simp [written] at token
  · rintro ⟨_, _, opened⟩
    simp at opened

theorem Piece.Cutting.brace {before before' : List Char} {amount : Bool}
    (plain : Tokenless before.reverse) (split : openBrace before = (before', amount)) :
    Cutting before' (some (amount, [])) ∧
      written before' (some (amount, [])) = before.reverse ++ ['\x7b'] := by
  have reading : written before' (some (amount, [])) = before.reverse ++ ['\x7b'] := by
    unfold openBrace at split
    split at split <;> cases split <;> simp [written, unclosed]
  refine ⟨.token ?_ nofun fun dollar => ?_, reading⟩
  · rw [reading]
    exact plain.snoc fun brace => absurd brace (by decide)
  · unfold openBrace at split
    split at split
    case h_1 => cases split; rfl
    case h_2 other =>
      cases split
      obtain ⟨text, same⟩ := dollar
      exact absurd (List.reverse_eq_iff.1 same.symm) (by simpa using other text.reverse)

/-- The pieces of a literal and of tokens with the literals behind them. -/
def Piece.interleave (literal : List Char) (tokens : List (Token × List Char)) : List Piece :=
  .literal literal :: tokens.flatMap fun (found, next) =>
    [.token found.amount found.content, .literal next]

theorem Piece.Cutting.scanned {before rest : List Char} {opened : Option (Bool × List Char)}
    (cutting : Cutting before opened) : ∃ literal tokens,
      Scanned (written before opened ++ rest) literal tokens ∧
      cutFrom before opened rest = interleave literal tokens := by
  induction before, opened, rest using cutFrom.induct with
  | case1 before =>
    cases cutting with
    | literal plain => exact ⟨_, [], (List.append_nil _).symm ▸ .last plain, rfl⟩
  | case2 before amount content =>
    cases cutting with
    | token plain => exact ⟨_, [], (List.append_nil _).symm ▸ .last plain, rfl⟩
  | case3 before c rest brace before' amount split ih =>
    obtain rfl := eq_of_beq brace
    cases cutting with
    | literal plain =>
      obtain ⟨further, reading⟩ := Cutting.brace plain split
      obtain ⟨literal, tokens, scanned, pieces⟩ := ih further
      rw [reading, List.append_assoc] at scanned
      refine ⟨literal, tokens, scanned, ?_⟩
      rw [cutFrom, if_pos brace, split]
      exact pieces
  | case4 before c rest other ih =>
    cases cutting with
    | literal plain closed =>
      have reading : written (c :: before) none = before.reverse ++ [c] := List.reverse_cons
      have further : Cutting (c :: before) none :=
        .literal (reading ▸ plain.snoc fun _ => closed)
          (List.reverse_cons ▸ not_unclosed_snoc closed (by simpa using other))
      obtain ⟨literal, tokens, scanned, pieces⟩ := ih further
      rw [reading, List.append_assoc] at scanned
      refine ⟨literal, tokens, scanned, ?_⟩
      rw [cutFrom, if_neg other]
      exact pieces
  | case5 before amount content c rest brace ih =>
    obtain rfl := eq_of_beq brace
    cases cutting with
    | token plain bare marked =>
      obtain ⟨next, tokens, scanned, pieces⟩ := ih .empty
      let token : Token := ⟨amount, content.reverse⟩
      have whole : written before (some (amount, content)) ++ '\x7d' :: rest =
          before.reverse ++ (token.written ++ (written [] none ++ rest)) := by
        cases amount <;> simp [written, unclosed, token, Token.written, Token.mark]
      have beginning : before.reverse <:+: written before (some (amount, content)) := by
        cases amount <;> simp [written, unclosed] <;> exact (List.prefix_append _ _).isInfix
      have plain' : Tokenless before.reverse :=
        fun content' bare' token' => plain content' bare' (token'.trans beginning)
      have bare' : Braceless token.content := fun c member => bare c (List.mem_reverse.1 member)
      refine ⟨before.reverse, (token, next) :: tokens, ?_, ?_⟩
      · rw [whole]
        exact .token plain' bare' marked scanned
      · rw [cutFrom, if_pos brace, pieces]
        rfl
  | case6 before amount content c rest _ brace before' amount' split ih =>
    obtain rfl := eq_of_beq brace
    cases cutting with
    | token plain =>
      obtain ⟨further, reading⟩ := Cutting.brace plain split
      obtain ⟨literal, tokens, scanned, pieces⟩ := ih further
      rw [reading, List.append_assoc] at scanned
      refine ⟨literal, tokens, scanned, ?_⟩
      rw [cutFrom, if_neg ‹_›, if_pos brace, split]
      exact pieces
  | case7 before amount content c rest closes opens ih =>
    cases cutting with
    | token plain bare marked =>
      have closes' : c ≠ '\x7d' := by simpa using closes
      have opens' : c ≠ '\x7b' := by simpa using opens
      have reading : written before (some (amount, c :: content)) =
          written before (some (amount, content)) ++ [c] := by
        simp [written, unclosed]
      have further : Cutting before (some (amount, c :: content)) := by
        apply Cutting.token _ _ marked
        · rw [reading]
          exact plain.snoc fun brace => absurd brace closes'
        · exact List.forall_mem_cons.2 ⟨⟨opens', closes'⟩, bare⟩
      obtain ⟨literal, tokens, scanned, pieces⟩ := ih further
      rw [reading, List.append_assoc] at scanned
      refine ⟨literal, tokens, scanned, ?_⟩
      rw [cutFrom, if_neg closes, if_neg opens]
      exact pieces

theorem Scanned.of_cut (pattern : String) : ∃ literal tokens,
    Scanned pattern.toList literal tokens ∧ Piece.cut pattern = Piece.interleave literal tokens :=
  Piece.Cutting.empty.scanned

/-! ## There is one way to scan it -/

theorem Tokenless.marked {literal : List Char} (plain : Tokenless literal) (token : Token) :
    Tokenless (literal ++ token.mark) := by
  unfold Token.mark
  split
  · exact plain.snoc fun closing => absurd closing (by decide)
  · rwa [List.append_nil]

/-- A token does not begin in a text that holds none, if a brace opens behind that text. -/
theorem Tokenless.not_inside {text before content rest behind : List Char}
    (plain : Tokenless text) (bare : Braceless content)
    (same : before ++ '\x7b' :: (content ++ '\x7d' :: rest) = text ++ '\x7b' :: behind) :
    text.length ≤ before.length := by
  by_contra longer
  obtain ⟨c, tail, rfl, same'⟩ := longer_beginning same.symm (Nat.lt_of_not_le longer)
  obtain ⟨rfl, behind'⟩ := List.cons.inj same'
  have inside : content ++ ['\x7d'] <+: tail := by
    rcases List.append_eq_append_iff.1 behind' with ⟨middle, rfl, shape⟩ | ⟨middle, rfl, shape⟩
    · cases middle with
      | nil => cases shape
      | cons d middle =>
        rw [← (List.cons.inj shape).1]
        exact ⟨middle, by simp⟩
    · cases middle with
      | nil => cases shape
      | cons d middle =>
        obtain ⟨rfl, _⟩ := List.cons.inj shape
        exact absurd rfl (bare _ (by simp)).1
  obtain ⟨tail', rfl⟩ := inside
  exact plain content bare ⟨before, tail', by simp⟩

theorem braceless_unique {content content' rest rest' : List Char} (bare : Braceless content)
    (bare' : Braceless content')
    (same : content ++ '\x7d' :: rest = content' ++ '\x7d' :: rest') :
    content = content' ∧ rest = rest' := by
  induction content generalizing content' with
  | nil =>
    cases content' with
    | nil => exact ⟨rfl, (List.cons.inj same).2⟩
    | cons c content' => exact absurd (List.cons.inj same).1.symm (bare' c List.mem_cons_self).2
  | cons c content ih =>
    cases content' with
    | nil => exact absurd (List.cons.inj same).1 (bare c List.mem_cons_self).2
    | cons d content' =>
      obtain ⟨rfl, further⟩ := List.cons.inj same
      obtain ⟨rfl, rfl⟩ := ih (fun c member => bare c (List.mem_cons_of_mem _ member))
        (fun c member => bare' c (List.mem_cons_of_mem _ member)) further
      exact ⟨rfl, rfl⟩

theorem Token.written_append (token : Token) (literal text : List Char) :
    literal ++ (token.written ++ text) =
      (literal ++ token.mark) ++ '\x7b' :: (token.content ++ '\x7d' :: text) := by
  simp [written]

theorem Tokenless.not_written {literal text : List Char} {token : Token}
    (bare : Braceless token.content) : ¬Tokenless (literal ++ (token.written ++ text)) := by
  intro plain
  exact plain token.content bare ⟨literal ++ token.mark, text, by simp [Token.written]⟩

theorem Scanned.unique {text literal literal' : List Char}
    {tokens tokens' : List (Token × List Char)} (scanned : Scanned text literal tokens)
    (scanned' : Scanned text literal' tokens') : literal = literal' ∧ tokens = tokens' := by
  induction scanned generalizing literal' tokens' with
  | last plain =>
    cases scanned' with
    | last => exact ⟨rfl, rfl⟩
    | token _ bare => exact absurd plain (Tokenless.not_written bare)
  | @token literal next text token tokens plain bare marked further ih =>
    generalize whole : literal ++ (token.written ++ text) = given at scanned'
    cases scanned' with
    | last plain' =>
      rw [← whole] at plain'
      exact absurd plain' (Tokenless.not_written bare)
    | @token _ next' text' token' tokens' plain' bare' marked' further' =>
      rw [token.written_append, token'.written_append] at whole
      have lengths := Nat.le_antisymm ((plain'.marked token').not_inside bare whole)
        ((plain.marked token).not_inside bare' whole.symm)
      obtain ⟨front, back⟩ := List.append_inj whole lengths.symm
      obtain ⟨amount, content⟩ := token
      obtain ⟨amount', content'⟩ := token'
      obtain ⟨rfl, rfl⟩ := braceless_unique bare bare' (List.cons.inj back).2
      obtain ⟨rfl, rfl⟩ := ih further'
      -- The literals can differ only by the dollar sign that one of the tokens would take.
      cases amount <;> cases amount' <;> simp only [Token.mark] at front
      · exact ⟨by simpa using front, rfl⟩
      · exact absurd (marked ⟨literal', by simpa using front.symm⟩) (by simp)
      · exact absurd (marked' ⟨literal, by simpa using front⟩) (by simp)
      · exact ⟨by simpa using front, rfl⟩

end FeatureRunner
