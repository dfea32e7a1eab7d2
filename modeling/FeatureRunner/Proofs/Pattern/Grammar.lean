import FeatureRunner.Pattern
import Mathlib.Tactic.Common

/-!
The texts that a placeholder pattern stands for. A pattern is divided at its tokens into literals
and placeholders. A text splits along them into what fits the literals and what the placeholders
take; of several such splits the longest is the one in which the first placeholder takes as much
as it can, then the second, and so on.
-/

namespace FeatureRunner
open FeatureRunner.Text

/-- A text without braces. -/
def Braceless (text : List Char) : Prop :=
  ∀ c ∈ text, c ≠ '\x7b' ∧ c ≠ '\x7d'

/-- A text without a pair of braces that has no brace between them. -/
def Tokenless (text : List Char) : Prop :=
  ∀ content, Braceless content → ¬ ('\x7b' :: (content ++ ['\x7d']) <:+: text)

/-- What stands before a placeholder and before what it takes: the dollar sign of an amount. -/
def Placeholder.mark (slot : Placeholder) : List Char :=
  if slot.amount then ['$'] else []

/-- A pattern is divided into a literal, and then each placeholder with the literal behind it. -/
inductive Divided : List Char → List Char → List (Placeholder × List Char) → Prop
  | last {literal : List Char} (plain : Tokenless literal) : Divided literal literal []
  | slot {literal content next text : List Char} {slot : Placeholder}
      {slots : List (Placeholder × List Char)} (plain : Tokenless literal)
      (bare : Braceless content) (named : strip content = slot.kind.name.toList)
      (marked : ['$'] <:+ literal → slot.amount) (numeric : slot.amount → slot.kind ≠ .word)
      (further : Divided text next slots) :
      Divided (literal ++ (slot.mark ++ ('\x7b' :: (content ++ '\x7d' :: text)))) literal
        ((slot, next) :: slots)

/-- An optional sign. -/
inductive Sign : List Char → Prop
  | none : Sign []
  | minus : Sign ['-']
  | plus : Sign ['+']

/-- One or more characters of a kind. -/
def OneOrMore (accepts : Char → Bool) (text : List Char) : Prop :=
  text ≠ [] ∧ ∀ c ∈ text, accepts c

/-- A text of one form and behind it a text of another. -/
def Joined (form form' : List Char → Prop) (text : List Char) : Prop :=
  ∃ first second, form first ∧ form' second ∧ text = first ++ second

/-- Digits with at most one point among them, and at least one digit. -/
def Decimal (text : List Char) : Prop :=
  ∃ whole fraction, OneOrMore isDecimalDigit (whole ++ fraction) ∧
    (text = whole ++ fraction ∨ text = whole ++ '.' :: fraction)

/-- The form of the texts that a placeholder takes. -/
def PlaceholderKind.Takes : PlaceholderKind → List Char → Prop
  | word => OneOrMore fun c => !isBlank c
  | int => Joined Sign (OneOrMore isDecimalDigit)
  | float => Joined Sign Decimal

/-- A text in which white space takes the place of white space, run by run. -/
inductive Loose : List Char → List Char → Prop
  | nil : Loose [] []
  | char {c : Char} {text taken : List Char} (solid : isBlank c = false)
      (further : Loose text taken) : Loose (c :: text) (c :: taken)
  | blanks {run run' text taken : List Char} (blank : OneOrMore isBlank run)
      (blank' : OneOrMore isBlank run') (whole : ∀ c, text.head? = some c → isBlank c = false)
      (further : Loose text taken) : Loose (run ++ text) (run' ++ taken)

/-- A text fits the literal text of a pattern under a policy. -/
def WhitespacePolicy.Fits : WhitespacePolicy → List Char → List Char → Prop
  | strict, text, taken => taken = text
  | tolerant, text, taken => Loose text taken

/-- A text splits along a literal, and then each placeholder with the literal behind it. -/
inductive Splits (policy : WhitespacePolicy) :
    List Char → List (Placeholder × List Char) → List Char → List (List Char) → Prop
  | last {literal text : List Char} (fits : policy.Fits literal text) :
      Splits policy literal [] text []
  | slot {literal before next held text : List Char} {slot : Placeholder}
      {slots : List (Placeholder × List Char)} {helds : List (List Char)}
      (fits : policy.Fits literal before) (takes : slot.kind.Takes held)
      (further : Splits policy next slots text helds) :
      Splits policy literal ((slot, next) :: slots) (before ++ (slot.mark ++ (held ++ text)))
        (held :: helds)

/-- Of two choices of texts, the first text that differs in length is longer in the one. -/
def NoShorter : List (List Char) → List (List Char) → Prop
  | held :: helds, other :: others =>
    other.length < held.length ∨ other.length = held.length ∧ NoShorter helds others
  | _, _ => True

/-- The split in which each placeholder takes as much as it can, the first before the others. -/
def Longest (policy : WhitespacePolicy) (literal : List Char)
    (slots : List (Placeholder × List Char)) (text : List Char) (helds : List (List Char)) : Prop :=
  Splits policy literal slots text helds ∧
    ∀ others, Splits policy literal slots text others → NoShorter helds others

end FeatureRunner
