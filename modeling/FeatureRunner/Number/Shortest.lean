import FeatureRunner.Number.Binary64

/-!
The text of a floating-point number: the fewest digits that read back as the number and, of
those, the nearest to it.
-/

namespace FeatureRunner.Number

/-- A positive decimal `0.d₁d₂… * 10 ^ point`. -/
structure Decimal where
  digits : List Char
  point : Int

/-- The least `point` with `dividend / divisor < 10 ^ point`. -/
def decimalPoint (dividend divisor : Nat) : Int :=
  if divisor ≤ dividend then (Nat.toDigits 10 (dividend / divisor)).length
  else
    let size := (Nat.toDigits 10 (divisor / dividend)).length
    if dividend * Nat.pow 10 (size - 1) = divisor then 2 - size else 1 - size

/-- The numbers that read back as one floating-point number, in quarters of its last place. -/
structure RoundingInterval where
  /-- Four times the significand. -/
  middle : Nat
  low : Nat
  high : Nat
  closed : Bool

/-- The interval of a significand and exponent. Below a power of two the neighbour is half as far
away; the ends belong to the number when its significand is even. -/
def RoundingInterval.of (significand : Nat) (exponent : Int) : RoundingInterval where
  middle := 4 * significand
  low := if significand = Nat.pow 2 52 ∧ exponent ≠ Binary64.leastExponent then 4 * significand - 1
    else 4 * significand - 2
  high := 4 * significand + 2
  closed := significand % 2 = 0

/-- Whether `candidate * scale` lies in the interval stretched by `unit`. -/
def RoundingInterval.holds (interval : RoundingInterval) (unit scale candidate : Nat) : Bool :=
  let position := candidate * scale
  if interval.closed then interval.low * unit ≤ position && position ≤ interval.high * unit
  else interval.low * unit < position && position < interval.high * unit

/-- The nearer of the two `count`-digit neighbours of the number, if one reads back. -/
def neighbour? (interval : RoundingInterval) (exponent point : Int) (count : Nat) : Option Nat :=
  let (twoUp, twoDown) := Binary64.powerOfTwo (exponent - 2)
  let shift : Int := point - count
  let (tenUp, tenDown) := if 0 ≤ shift then (Nat.pow 10 shift.toNat, 1) else (1, Nat.pow 10 (-shift).toNat)
  let scale := tenUp * twoDown
  let unit := tenDown * twoUp
  let below := interval.middle * unit / scale
  let above := below + 1
  let lowHolds := interval.holds unit scale below
  let highHolds := interval.holds unit scale above
  if lowHolds && highHolds then
    let down := interval.middle * unit - below * scale
    let up := above * scale - interval.middle * unit
    if down < up then some below
    else if up < down then some above
    else if below % 2 = 0 then some below else some above
  else if lowHolds then some below
  else if highHolds then some above
  else none

/-- The first neighbour that reads back, for `count` digits and, failing that, one more. -/
def shortestFrom (interval : RoundingInterval) (exponent point : Int) : Nat → Nat → Nat × Nat
  | 0, count => (interval.middle, count)
  | fuel + 1, count =>
    match neighbour? interval exponent point count with
    | some digits => (digits, count)
    | none => shortestFrom interval exponent point fuel (count + 1)

/-- The shortest decimal of `significand * 2 ^ exponent`, which is not zero. Seventeen digits
always read back. -/
def shortest (significand : Nat) (exponent : Int) : Decimal :=
  let (dividend, divisor) := Binary64.magnitude significand exponent
  let point := decimalPoint dividend divisor
  let (value, count) := shortestFrom (.of significand exponent) exponent point 17 1
  let digits := Nat.toDigits 10 value
  { digits := (digits.reverse.dropWhile (· == '0')).reverse
    point := point + ((digits.length : Int) - count) }

/-- How numbers are spelled. -/
structure NumberStyle where
  /-- Powers of ten below which a number is written out rather than with an exponent. -/
  positionalBelow : Int
  /-- The least power of ten that is written out. -/
  positionalFrom : Int
  notANumber : String
  infinite : String

/-- Numbers inside messages: written out from `1e-4` up to `1e16`. -/
def plainStyle : NumberStyle := ⟨16, -4, "nan", "inf"⟩

/-- The text of a decimal with a point, at least one digit on each side of it. -/
def Decimal.positional (decimal : Decimal) : List Char :=
  if decimal.point ≤ 0 then
    '0' :: '.' :: List.replicate (-decimal.point).toNat '0' ++ decimal.digits
  else
    let size := decimal.point.toNat
    let whole := decimal.digits.take size
    let fraction := decimal.digits.drop size
    whole ++ List.replicate (size - whole.length) '0' ++ '.' ::
      (if fraction.isEmpty then ['0'] else fraction)

/-- The text of a decimal with an exponent of at least two digits and its sign. -/
def Decimal.scientific (decimal : Decimal) : List Char :=
  let power := decimal.point - 1
  let size := Nat.toDigits 10 power.natAbs
  let mantissa := match decimal.digits with
    | [] => ['0']
    | [digit] => [digit]
    | digit :: rest => digit :: '.' :: rest
  mantissa ++ 'e' :: (if power < 0 then '-' else '+') :: List.replicate (2 - size.length) '0' ++ size

/-- The text of a number in a style. -/
def Binary64.textIn (style : NumberStyle) : Binary64 → String
  | .nan => style.notANumber
  | .infinity negative => (if negative then "-" else "") ++ style.infinite
  | .finite negative significand exponent =>
    let body :=
      if significand = 0 then ['0', '.', '0']
      else
        let decimal := shortest significand exponent
        if style.positionalFrom < decimal.point ∧ decimal.point ≤ style.positionalBelow then
          decimal.positional
        else decimal.scientific
    (if negative then "-" else "") ++ String.ofList body

def Binary64.text (number : Binary64) : String :=
  number.textIn plainStyle

/-- The text of a finite number with a fixed number of decimal places. -/
def Binary64.fixedText (places : Nat) : Binary64 → String
  | .nan => "nan"
  | .infinity negative => if negative then "-inf" else "inf"
  | .finite negative significand exponent =>
    let (dividend, divisor) := Binary64.magnitude significand exponent
    let digits := Nat.toDigits 10 (roundQuotient (dividend * Nat.pow 10 places) divisor)
    let padded := List.replicate (places + 1 - digits.length) '0' ++ digits
    let size := padded.length - places
    (if negative then "-" else "") ++ String.ofList (padded.take size) ++ "." ++
      String.ofList (padded.drop size)

end FeatureRunner.Number
