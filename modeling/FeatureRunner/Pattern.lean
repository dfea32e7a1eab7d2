import FeatureRunner.Number.Numeral
import FeatureRunner.Pattern.Piece
import FeatureRunner.Regex.Reader
import FeatureRunner.Value.Display
import FeatureRunner.Value.Json

/-!
Step patterns: literal text with typed placeholders, or a regular expression. A pattern matches a
whole step text or not at all, and a match yields the parameters in order.
-/

namespace FeatureRunner
open FeatureRunner.Text FeatureRunner.Number

/-- How white space in the literal text of a pattern matches: any run by any other, or each
character by itself. -/
inductive WhitespacePolicy
  | tolerant
  | strict
  deriving DecidableEq, Repr

namespace WhitespacePolicy

def name : WhitespacePolicy → String
  | tolerant => "tolerant"
  | strict => "strict"

def ofValue? : Value → Option WhitespacePolicy
  | .text "tolerant" => some tolerant
  | .text "strict" => some strict
  | _ => none

end WhitespacePolicy

/-- An expression with the text that it is written as. -/
structure Fragment where
  source : List Char
  regex : Regex

namespace Fragment

def nothing : Fragment := ⟨[], .empty⟩

def append (first second : Fragment) : Fragment :=
  ⟨first.source ++ second.source, .seq first.regex second.regex⟩

def concat (fragments : List Fragment) : Fragment :=
  fragments.foldr append nothing

/-- The characters that are written with a backslash to stand for themselves. -/
def specialChars : List Char :=
  ['\t', '\n', Char.ofNat 11, Char.ofNat 12, '\r', ' ', '#', '$', '&', '(', ')', '*', '+', '-',
   '.', '?', '[', '\\', ']', '^', '\x7b', '|', '\x7d', '~']

/-- A character that stands for itself. -/
def char (c : Char) : Fragment :=
  ⟨if specialChars.contains c then ['\\', c] else [c], .char c⟩

/-- A text that stands for itself. -/
def verbatim (text : List Char) : Fragment :=
  concat (text.map char)

/-- One or more of a class of characters. -/
def oneOrMore (source : String) (kind : CharKind) (negated : Bool) : Fragment :=
  ⟨source.toList, .loop true 1 none (.named kind negated)⟩

/-- The literal text of a pattern under a policy. -/
def literal : WhitespacePolicy → List Char → Fragment
  | .strict, text => verbatim text
  | .tolerant, text =>
    concat ((runs text).map fun run =>
      if run.all isBlank then Fragment.oneOrMore "\\s+" .blank false else verbatim run)

/-- An optional sign. -/
def sign : Regex :=
  .loop true 0 (some 1) (.set false [.range '-' '-', .range '+' '+'])

def digits (least : Nat) : Regex :=
  .loop true least none (.named .digit false)

/-- What a placeholder takes, without its group. -/
def taken : PlaceholderKind → Fragment
  | .word => Fragment.oneOrMore "\\S+" .blank true
  | .int => ⟨"[-+]?\\d+".toList, .seq sign (digits 1)⟩
  | .float =>
    ⟨"[-+]?(?:\\d+\\.\\d*|\\.\\d+|\\d+)".toList,
      .seq sign (.alt (.seq (digits 1) (.seq (.char '.') (digits 0)))
        (.alt (.seq (.char '.') (digits 1)) (digits 1)))⟩

/-- A placeholder as the group with the given number. -/
def placeholder (index : Nat) (placeholder : Placeholder) : Fragment :=
  let body := taken placeholder.kind
  let held : Fragment := ⟨'(' :: body.source ++ [')'], .group index body.regex⟩
  if placeholder.amount then append (char '$') held else held

/-- The parts of a pattern, with the groups numbered from `index`. -/
def ofParts (policy : WhitespacePolicy) : Nat → List PatternPart → Fragment
  | _, [] => nothing
  | index, .literal text :: rest => append (literal policy text) (ofParts policy index rest)
  | index, .placeholder slot :: rest =>
    append (placeholder index slot) (ofParts policy (index + 1) rest)

end Fragment

/-- A pattern with placeholders, compiled under a policy. -/
structure PlaceholderPattern where
  source : String
  policy : WhitespacePolicy
  parts : List PatternPart

namespace PlaceholderPattern

/-- The placeholders in order. -/
def placeholders (pattern : PlaceholderPattern) : List Placeholder :=
  pattern.parts.filterMap fun
    | .placeholder slot => some slot
    | .literal _ => none

def kinds (pattern : PlaceholderPattern) : List String :=
  pattern.placeholders.map (·.name)

def fragment (pattern : PlaceholderPattern) : Fragment :=
  .ofParts pattern.policy 1 pattern.parts

/-- The value of the text that a placeholder took. -/
def coerce (kind : PlaceholderKind) (text : List Char) : Except Fault Value :=
  match kind with
  | .word => .ok (.text (String.ofList text))
  | .int =>
    if digitBound < digitCount text then .error (.digitLimit (digitCount text))
    else .ok (.int ((readInt? text).getD 0))
  | .float => .ok (.float ((readDecimal? text).getD .nan))

/-- The values of what the groups hold. -/
def coerceGroups : List Placeholder → List (Option (List Char)) → Except Fault (List Value)
  | slot :: slots, text :: texts => do
    let value ← match text with
      | some text => coerce slot.kind text
      | none => .ok .null
    return value :: (← coerceGroups slots texts)
  | _, _ => .ok []

/-- The parameters of a text that matches. -/
def match? (pattern : PlaceholderPattern) (text : String) : Except Fault (Option (List Value)) :=
  match pattern.fragment.regex.fullMatch? false text.toList with
  | none => .ok none
  | some captures => do
    let groups := Regex.Captures.groups captures pattern.placeholders.length
    return some (← coerceGroups pattern.placeholders groups)

end PlaceholderPattern

/-- A step pattern. -/
inductive StepPattern
  | placeholders (pattern : PlaceholderPattern)
  | regex (text : RegexText) (regex : Regex) (groups : Nat)

namespace StepPattern

/-- The name under which the form of a pattern is published. -/
def formName : StepPattern → String
  | placeholders _ => "PlaceholderPattern"
  | regex .. => "RegexPattern"

/-- The pattern as it was written. -/
def source : StepPattern → String
  | placeholders pattern => pattern.source
  | regex text .. => text.source

def kinds : StepPattern → List String
  | placeholders pattern => pattern.kinds
  | regex .. => []

/-- The regular expression that a step text has to match. -/
def regexSource : StepPattern → String
  | placeholders pattern => String.ofList pattern.fragment.source
  | regex text .. => text.source

/-- The parameters of a text that matches; groups of a regular expression stay texts. -/
def match? (pattern : StepPattern) (text : String) : Except Fault (Option (List Value)) :=
  match pattern with
  | placeholders pattern => pattern.match? text
  | regex written expression groups =>
    match expression.fullMatch? written.ignoreCase text.toList with
    | none => .ok none
    | some captures =>
      .ok (some ((Regex.Captures.groups captures groups).map fun
        | some held => .text (String.ofList held)
        | none => .null))

/-- Compiles a pattern given as a value under a policy given as a value. A regular expression
takes no policy. -/
def compile (pattern whitespace : Value) : Except Fault StepPattern :=
  match pattern with
  | .regex written =>
    match Regex.read? written.source with
    | some (expression, groups) => .ok (.regex written expression groups)
    | none => .error (.regexForm written.source)
  | .text source =>
    match WhitespacePolicy.ofValue? whitespace with
    | none => .error (.whitespacePolicy whitespace.shown)
    | some policy => do
      return .placeholders ⟨source, policy, ← PatternPart.ofPattern source⟩
  | other => .error (.notAPattern other.typeName)

end StepPattern

end FeatureRunner
