import FeatureRunner.Calendar.Reader
import FeatureRunner.Number.Numeral
import FeatureRunner.Text.Blank
import FeatureRunner.Text.CodeRange
import FeatureRunner.Value.Json

/-!
What a plain scalar of a YAML 1.1 document stands for: null, a truth value, a whole number in one
of five notations, a floating-point number, a date, or else its own text.
-/

namespace FeatureRunner.Yaml
open FeatureRunner.Number FeatureRunner.Text

def nullNames : List String := ["", "~", "null", "Null", "NULL"]

def trueNames : List String :=
  ["yes", "Yes", "YES", "true", "True", "TRUE", "on", "On", "ON"]

def falseNames : List String :=
  ["no", "No", "NO", "false", "False", "FALSE", "off", "Off", "OFF"]

/-- Whether a character is a digit below a base, or an underscore. -/
def isDigitOf (base : Nat) (c : Char) : Bool :=
  c == '_' || match hexValue c.toUpper with
    | some value => value < base
    | none => false

/-- The value of digits in a base; underscores between them do not count. -/
def baseValue (base : Nat) (digits : List Char) : Nat :=
  digits.foldl (fun value c =>
    match hexValue c.toUpper with
    | some digit => value * base + digit
    | none => value) 0

/-- A numeral without underscores. -/
def withoutUnderscores (text : List Char) : List Char :=
  text.filter (· != '_')

/-- Whether a text is a digit and then digits and underscores. -/
def isDigits : List Char → Bool
  | c :: rest => c.isDigit && rest.all (isDigitOf 10)
  | [] => false

/-- Whether a text counts minutes or seconds: up to two digits below 60. -/
def isSixtieth : List Char → Bool
  | [c] => c.isDigit
  | [c, d] => '0' ≤ c && c ≤ '5' && d.isDigit
  | _ => false

/-- The value of parts that each count sixty times the next. -/
def sixtyValue (parts : List (List Char)) : Nat :=
  parts.foldl (fun value part => value * 60 + baseValue 10 part) 0

/-- The magnitude of a whole number without its sign, in decimal, octal, hexadecimal, binary or
base sixty. -/
def magnitude? (text : List Char) : Option (Except Fault Nat) :=
  match text with
  | ['0'] => some (.ok 0)
  | '0' :: 'b' :: rest =>
    if !rest.isEmpty && rest.all (isDigitOf 2) then some (.ok (baseValue 2 rest)) else none
  | '0' :: 'x' :: rest =>
    if !rest.isEmpty && rest.all (isDigitOf 16) then some (.ok (baseValue 16 rest)) else none
  | '0' :: rest => if rest.all (isDigitOf 8) then some (.ok (baseValue 8 rest)) else none
  | _ =>
    match splitAt ':' text with
    | [digits] =>
      let count := (withoutUnderscores digits).length
      if !isDigits digits then none
      else if digitBound < count then some (.error (.digitLimit count))
      else some (.ok (baseValue 10 digits))
    | first :: rest =>
      if isDigits first && rest.all isSixtieth then some (.ok (sixtyValue (first :: rest))) else none
    | [] => none

def wholeNumber? (text : List Char) : Option (Except Fault Value) :=
  let (negative, rest) := takeSign text
  (magnitude? rest).map fun result => result.map fun (value : Nat) =>
    .int (if negative then -(value : Int) else value)

/-- Whether an exponent follows its rule: nothing, or `e`, a sign and digits. -/
def isExponent : List Char → Bool
  | [] => true
  | e :: sign :: rest =>
    (e == 'e' || e == 'E') && (sign == '-' || sign == '+') && !rest.isEmpty && rest.all Char.isDigit
  | _ => false

/-- Whether a text is a number with a point: digits before it, or else digits after it and no
sign. -/
def isPointed (signed : Bool) (text : List Char) : Bool :=
  match cutAt? '.' text with
  | some (whole, after) =>
    let fraction := after.takeWhile (isDigitOf 10)
    let exponent := after.dropWhile (isDigitOf 10)
    isExponent exponent && (isDigits whole || (whole.isEmpty && isDigits fraction && !signed))
  | none => false

/-- A number in base sixty with a point after its last part. -/
def sixtyFloat? (text : List Char) : Option Binary64 :=
  match cutAt? '.' text with
  | some (whole, fraction) =>
    match splitAt ':' whole with
    | first :: second :: rest =>
      if isDigits first && (second :: rest).all isSixtieth && fraction.all (isDigitOf 10) then
        let high := sixtyValue ((first :: second :: rest).dropLast)
        let low := (rest.getLastD second) ++ '.' :: withoutUnderscores fraction
        (readDecimal? low).map fun seconds => (Binary64.ofInt (high * 60 : Nat)).add seconds
      else none
    | _ => none
  | none => none

def floatingNumber? (text : List Char) : Option Binary64 :=
  let (negative, rest) := takeSign text
  let signed := rest.length != text.length
  let name := String.ofList rest
  if [".inf", ".Inf", ".INF"].contains name then some (.infinity negative)
  else if !signed && [".nan", ".NaN", ".NAN"].contains name then some .nan
  else if isPointed signed rest then readDecimal? (withoutUnderscores text)
  else (sixtyFloat? rest).map fun value => if negative then value.neg else value

/-- Whether a text is a date in digits. -/
def isDate : List Char → Bool
  | [a, b, c, d, '-', e, f, '-', g, h] => [a, b, c, d, e, f, g, h].all Char.isDigit
  | _ => false

/-- The value of a plain scalar. -/
def resolve (text : List Char) : Except Fault Value :=
  let name := String.ofList text
  if nullNames.contains name then .ok .null
  else if trueNames.contains name then .ok (.bool true)
  else if falseNames.contains name then .ok (.bool false)
  else match wholeNumber? text with
    | some result => result
    | none =>
      match floatingNumber? text with
      | some value => .ok (.float value)
      | none => .ok (if isDate text then .other "date" else .text name)

end FeatureRunner.Yaml
