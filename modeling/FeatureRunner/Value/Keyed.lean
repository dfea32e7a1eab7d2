import FeatureRunner.Value

/-!
Mappings as documents write them: a key that is known keeps its place and takes a new value.
-/

namespace FeatureRunner
open FeatureRunner.Number

/-- What a mapping knows a key by. -/
inductive Key
  | null
  | text (value : String)
  | number (value : Rat)
  | infinity (negative : Bool)
  | nan
  | other (typeName : String)
  deriving DecidableEq

namespace Value

/-- What a value is as a key. Numbers and truth values of one value are one key, and what is no
number is one key, though it does not equal itself. -/
def key : Value → Key
  | null => .null
  | bool value => .number (if value then 1 else 0)
  | int value => .number value
  | float .nan => .nan
  | float (.infinity negative) => .infinity negative
  | float (.finite negative significand exponent) =>
    let (dividend, divisor) := Binary64.magnitude significand exponent
    .number (mkRat (if negative then -dividend else dividend) divisor)
  | text value => .text value
  | value => .other value.typeName

/-- The value under a key. -/
def held? (entries : List (Value × Value)) (key : Key) : Option Value :=
  (entries.find? fun entry => entry.1.key == key).map (·.2)

/-- Changes the value under a key: in place if the key is known, else at the end. -/
def alter (key : Value) (change : Option Value → Value) :
    List (Value × Value) → List (Value × Value)
  | [] => [(key, change none)]
  | (known, old) :: rest =>
    if known.key = key.key then (known, change (some old)) :: rest
    else (known, old) :: alter key change rest

/-- The entries of a document with each key once, under its last value and in the place of its
first. -/
def keyedEntries (entries : List (Value × Value)) : List (Value × Value) :=
  entries.foldl (fun map entry => alter entry.1 (fun _ => entry.2) map) []

end Value

end FeatureRunner
