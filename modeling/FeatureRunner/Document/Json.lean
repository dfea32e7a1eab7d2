import FeatureRunner.Number.Numeral
import FeatureRunner.Text.Blank
import FeatureRunner.Text.CodeRange
import FeatureRunner.Value.Json
import FeatureRunner.Value.Keyed

/-!
Reading JSON documents. The names `NaN`, `Infinity` and `-Infinity` are numbers too, and a key that
is repeated keeps its place and takes its last value.
-/

namespace FeatureRunner.Document
open FeatureRunner.Number FeatureRunner.Text

namespace Json

def isSpace (c : Char) : Bool :=
  c == ' ' || c == '\t' || c == '\n' || c == '\r'

def skipSpace (text : List Char) : List Char :=
  text.dropWhile isSpace

/-- The value of a hexadecimal digit in either letter case. -/
def hexDigit? (c : Char) : Option Nat :=
  hexValue c.toUpper

/-- Four hexadecimal digits. -/
def hexUnit? : List Char → Option (Nat × List Char)
  | a :: b :: c :: d :: rest => do
    return ((((← hexDigit? a) * 16 + (← hexDigit? b)) * 16 + (← hexDigit? c)) * 16 +
      (← hexDigit? d), rest)
  | _ => none

def isHighUnit (unit : Nat) : Bool := 0xD800 ≤ unit && unit < 0xDC00
def isLowUnit (unit : Nat) : Bool := 0xDC00 ≤ unit && unit < 0xE000

/-- The character of an escape whose first unit is given; two units may make one character. -/
def unitChar (unit : Nat) (rest : List Char) : Char × List Char :=
  if isHighUnit unit then
    match rest with
    | '\\' :: 'u' :: more =>
      match hexUnit? more with
      | some (low, after) =>
        if isLowUnit low then
          (Char.ofNat (0x10000 + (unit - 0xD800) * 0x400 + (low - 0xDC00)), after)
        else (Char.ofNat 0xFFFD, rest)
      | none => (Char.ofNat 0xFFFD, rest)
    | _ => (Char.ofNat 0xFFFD, rest)
  else if isLowUnit unit then (Char.ofNat 0xFFFD, rest)
  else (Char.ofNat unit, rest)

/-- The character that an escaped letter stands for. -/
def simpleEscape? : Char → Option Char
  | '"' => some '"'
  | '\\' => some '\\'
  | '/' => some '/'
  | 'b' => some (Char.ofNat 8)
  | 'f' => some (Char.ofNat 12)
  | 'n' => some '\n'
  | 'r' => some '\r'
  | 't' => some '\t'
  | _ => none

/-- Reads a text after its opening quote, given the characters read, latest first. -/
def readText : Nat → List Char → List Char → Except Fault (String × List Char)
  | 0, _, _ => .error .malformedJson
  | fuel + 1, before, text =>
    match text with
    | '"' :: rest => .ok (String.ofList before.reverse, rest)
    | '\\' :: 'u' :: rest =>
      match hexUnit? rest with
      | none => .error .malformedJson
      | some (unit, rest) =>
        let (c, rest) := unitChar unit rest
        readText fuel (c :: before) rest
    | '\\' :: c :: rest =>
      match simpleEscape? c with
      | none => .error .malformedJson
      | some c => readText fuel (c :: before) rest
    | c :: rest =>
      if c.toNat < 32 || c == '\\' then .error .malformedJson else readText fuel (c :: before) rest
    | [] => .error .malformedJson

/-- The fraction of a number: a point and at least one digit. -/
def takeFraction : List Char → List Char × List Char
  | '.' :: rest =>
    let digits := rest.takeWhile Char.isDigit
    if digits.isEmpty then ([], '.' :: rest) else (digits, rest.dropWhile Char.isDigit)
  | text => ([], text)

/-- The exponent of a number, if it has at least one digit. -/
def takeExponent? : List Char → Option (List Char × List Char)
  | c :: rest =>
    if c == 'e' || c == 'E' then
      let (sign, after) := match rest with
        | '-' :: more => (['-'], more)
        | '+' :: more => ([], more)
        | _ => ([], rest)
      let digits := after.takeWhile Char.isDigit
      if digits.isEmpty then none else some (sign ++ digits, after.dropWhile Char.isDigit)
    else none
  | [] => none

/-- Reads a number: a whole number unless it has a fraction or an exponent. -/
def readNumber (text : List Char) : Except Fault (Value × List Char) :=
  let (sign, body) := match text with
    | '-' :: rest => (['-'], rest)
    | _ => ([], text)
  let (whole, rest) := match body with
    | '0' :: rest => (['0'], rest)
    | _ => (body.takeWhile Char.isDigit, body.dropWhile Char.isDigit)
  if whole.isEmpty then .error .malformedJson
  else
    let (fraction, rest) := takeFraction rest
    match fraction.isEmpty, takeExponent? rest with
    | true, none =>
      if digitBound < whole.length then .error (.digitLimit whole.length)
      else .ok (.int ((readInt? (sign ++ whole)).getD 0), rest)
    | _, exponent =>
      let (power, rest) := exponent.getD (['0'], rest)
      let number := Binary64.ofDecimal (!sign.isEmpty) (digitsValue (whole ++ fraction))
        ((readInt? power).getD 0 - fraction.length)
      .ok (.float number, rest)

/-- The names that are values, and what they stand for. -/
def names : List (String × Value) :=
  [("null", .null), ("true", .bool true), ("false", .bool false), ("NaN", .float .nan),
   ("Infinity", .float (.infinity false)), ("-Infinity", .float (.infinity true))]

def readName? (text : List Char) : Option (Value × List Char) :=
  names.findSome? fun (name, value) => (dropBeginning? name.toList text).map fun rest => (value, rest)

mutual

/-- Reads a value that begins at once. -/
def readValue : Nat → List Char → Except Fault (Value × List Char)
  | 0, _ => .error .malformedJson
  | fuel + 1, text =>
    match text with
    | '"' :: rest => do
      let (value, rest) ← readText fuel [] rest
      return (.text value, rest)
    | '[' :: rest =>
      match skipSpace rest with
      | ']' :: rest => .ok (.list [], rest)
      | rest => do
        let (items, rest) ← readItems fuel rest
        return (.list items, rest)
    | '\x7b' :: rest =>
      match skipSpace rest with
      | '\x7d' :: rest => .ok (.dict [], rest)
      | rest => do
        let (entries, rest) ← readEntries fuel rest
        return (.dict (Value.keyedEntries entries), rest)
    | _ =>
      match readName? text with
      | some found => .ok found
      | none => readNumber text

/-- Reads the values of a list up to its closing bracket. -/
def readItems : Nat → List Char → Except Fault (List Value × List Char)
  | 0, _ => .error .malformedJson
  | fuel + 1, text => do
    let (value, rest) ← readValue fuel text
    match skipSpace rest with
    | ']' :: rest => return ([value], rest)
    | ',' :: rest =>
      let (values, rest) ← readItems fuel (skipSpace rest)
      return (value :: values, rest)
    | _ => .error .malformedJson

/-- Reads the entries of a mapping up to its closing brace. -/
def readEntries :
    Nat → List Char → Except Fault (List (Value × Value) × List Char)
  | 0, _ => .error .malformedJson
  | fuel + 1, text =>
    match text with
    | '"' :: rest => do
      let (key, rest) ← readText fuel [] rest
      match skipSpace rest with
      | ':' :: rest =>
        let (value, rest) ← readValue fuel (skipSpace rest)
        match skipSpace rest with
        | '\x7d' :: rest => return ([(.text key, value)], rest)
        | ',' :: rest =>
          let (entries, rest) ← readEntries fuel (skipSpace rest)
          return ((.text key, value) :: entries, rest)
        | _ => .error .malformedJson
      | _ => .error .malformedJson
    | _ => .error .malformedJson

end

/-- Reads a document that holds one value and nothing else. -/
def read (source : String) : Except Fault Value := do
  let text := skipSpace source.toList
  let (value, rest) ← readValue (2 * text.length + 1) text
  if (skipSpace rest).isEmpty then return value else .error .malformedJson

end Json

end FeatureRunner.Document
