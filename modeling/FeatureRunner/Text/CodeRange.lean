/-!
Sets of characters given by ranges of code points, and the text form in which the character
tables of this library are written: ranges in hexadecimal, separated by blanks or line ends.
-/

namespace FeatureRunner.Text

/-- The value of a hexadecimal digit written in upper case. -/
def hexValue (digit : Char) : Option Nat :=
  if digit.isDigit then some (digit.toNat - '0'.toNat)
  else if 'A' ≤ digit ∧ digit ≤ 'F' then some (digit.toNat - 'A'.toNat + 10)
  else none

/-- Reads hexadecimal digits up to the first other character and returns what follows it. -/
def readHex : List Char → Nat → Nat × List Char
  | [], value => (value, [])
  | digit :: rest, value =>
    match hexValue digit with
    | some amount => readHex rest (value * 16 + amount)
    | none => (value, digit :: rest)

/-- A set of characters as inclusive ranges of code points. -/
structure CodeRanges where
  ranges : List (Nat × Nat)

namespace CodeRanges

def contains (set : CodeRanges) (c : Char) : Bool :=
  set.ranges.any fun range => range.1 ≤ c.toNat && c.toNat ≤ range.2

/-- Reads one range, `41-5A` or `5F`. -/
def readRange (entry : List Char) : Nat × Nat :=
  match readHex entry 0 with
  | (first, '-' :: rest) => (first, (readHex rest 0).1)
  | (first, _) => (first, first)

/-- Reads a table of ranges. -/
def ofText (table : String) : CodeRanges :=
  ⟨((table.toList.splitBy fun a b => !(a.isWhitespace || b.isWhitespace)).filter
      fun entry => !entry.any Char.isWhitespace).map readRange⟩

end CodeRanges

end FeatureRunner.Text
