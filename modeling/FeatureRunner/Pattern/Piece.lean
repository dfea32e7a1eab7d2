import FeatureRunner.Fault
import FeatureRunner.Text.Blank

/-!
Step patterns cut at their placeholder tokens. A token is a pair of braces with no brace between
them; a dollar sign directly before it belongs to it.
-/

namespace FeatureRunner
open FeatureRunner.Text

/-- A piece of a step pattern as it is written. -/
inductive Piece
  | literal (text : List Char)
  | token (amount : Bool) (content : List Char)
  deriving DecidableEq, Repr

namespace Piece

/-- Opens a brace after the given literal text, nearest character first: a dollar sign at its end
leaves the literal. -/
def openBrace : List Char → List Char × Bool
  | '$' :: before => (before, true)
  | before => (before, false)

/-- The literal text that a brace turns out to be when it is never closed. -/
def unclosed (before : List Char) (amount : Bool) (content : List Char) : List Char :=
  content ++ '\x7b' :: (if amount then '$' :: before else before)

/-- Cuts a pattern, given the literal text since the last token, nearest character first, and the
brace that is open after it with its content so far. -/
def cutFrom (before : List Char) : Option (Bool × List Char) → List Char → List Piece
  | none, [] => [.literal before.reverse]
  | some (amount, content), [] => [.literal (unclosed before amount content).reverse]
  | none, c :: rest =>
    if c == '\x7b' then
      let (before, amount) := openBrace before
      cutFrom before (some (amount, [])) rest
    else cutFrom (c :: before) none rest
  | some (amount, content), c :: rest =>
    if c == '\x7d' then
      .literal before.reverse :: .token amount content.reverse :: cutFrom [] none rest
    else if c == '\x7b' then
      let (before, amount) := openBrace (unclosed before amount content)
      cutFrom before (some (amount, [])) rest
    else cutFrom before (some (amount, c :: content)) rest

/-- Cuts a pattern into literals and tokens: a literal, possibly empty, before each token and one
after the last. -/
def cut (pattern : String) : List Piece :=
  cutFrom [] none pattern.toList

end Piece

/-- What a placeholder takes. -/
inductive PlaceholderKind
  | word
  | int
  | float
  deriving DecidableEq, Repr

namespace PlaceholderKind

def name : PlaceholderKind → String
  | word => "word"
  | int => "int"
  | float => "float"

def ofName? : String → Option PlaceholderKind
  | "word" => some word
  | "int" => some int
  | "float" => some float
  | _ => none

end PlaceholderKind

/-- A placeholder; an amount stands after a dollar sign and is a number. -/
structure Placeholder where
  kind : PlaceholderKind
  amount : Bool
  deriving DecidableEq, Repr

def Placeholder.name (placeholder : Placeholder) : String :=
  (if placeholder.amount then "money_" else "") ++ placeholder.kind.name

/-- A piece of a step pattern that was found to be in order. -/
inductive PatternPart
  | literal (text : List Char)
  | placeholder (placeholder : Placeholder)
  deriving DecidableEq, Repr

/-- The meaning of a piece of the given pattern. -/
def Piece.resolve (pattern : String) : Piece → Except Fault PatternPart
  | .literal text => .ok (.literal text)
  | .token amount content =>
    let name := String.ofList (strip content)
    match PlaceholderKind.ofName? name with
    | none => .error (.unsupportedPlaceholder name pattern)
    | some kind =>
      if amount && kind == .word then .error (.notAnAmount name pattern)
      else .ok (.placeholder ⟨kind, amount⟩)

/-- The parts of a pattern, or the fault of its first token that is not in order. -/
def PatternPart.ofPattern (pattern : String) : Except Fault (List PatternPart) :=
  (Piece.cut pattern).mapM (Piece.resolve pattern)

end FeatureRunner
