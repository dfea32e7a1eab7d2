import FeatureRunner.Number.Binary64
import FeatureRunner.Text.Digit

/-!
Numbers as they are read from text: whole numbers and decimals in the digits of any script.
-/

namespace FeatureRunner.Number
open FeatureRunner.Text

/-- The value of a run of digits that follows `value`. -/
def digitsFrom (value : Nat) : List Char → Nat
  | [] => value
  | c :: rest => digitsFrom (value * 10 + (digitValue c).getD 0) rest

def digitsValue (digits : List Char) : Nat :=
  digitsFrom 0 digits

/-- The sign in front of a numeral and what follows it. -/
def takeSign : List Char → Bool × List Char
  | '-' :: rest => (true, rest)
  | '+' :: rest => (false, rest)
  | text => (false, text)

/-- Reads a whole number: an optional sign and at least one digit. -/
def readInt? (text : List Char) : Option Int :=
  let (negative, digits) := takeSign text
  if digits.isEmpty || !digits.all isDecimalDigit then none
  else
    let value : Int := digitsValue digits
    some (if negative then -value else value)

/-- How many digits a numeral has, its sign not counted. -/
def digitCount (text : List Char) : Nat :=
  (takeSign text).2.length

/-- The exponent after a mantissa: nothing, or an `e` with a whole number. -/
def readExponent? : List Char → Option Int
  | [] => some 0
  | c :: rest => if c == 'e' || c == 'E' then readInt? rest else none

/-- Reads a decimal: an optional sign, digits with at most one point and at least one digit, and
an optional exponent. -/
def readDecimal? (text : List Char) : Option Binary64 :=
  let (negative, rest) := takeSign text
  let whole := rest.takeWhile isDecimalDigit
  let rest := rest.dropWhile isDecimalDigit
  let (fraction, rest) := match rest with
    | '.' :: more => (more.takeWhile isDecimalDigit, more.dropWhile isDecimalDigit)
    | _ => ([], rest)
  if whole.isEmpty && fraction.isEmpty then none
  else (readExponent? rest).map fun exponent =>
    .ofDecimal negative (digitsValue (whole ++ fraction)) (exponent - fraction.length)

/-- Reads a number written as a decimal or as `inf`, `infinity` or `nan` in any letter case. -/
def readNumber? (text : List Char) : Option Binary64 :=
  let (negative, rest) := takeSign text
  let name := String.ofList (rest.map Char.toLower)
  if name == "inf" || name == "infinity" then some (.infinity negative)
  else if name == "nan" then some .nan
  else readDecimal? text

end FeatureRunner.Number
