import FeatureRunner.Number.Rounding

/-!
Floating-point numbers of the 64-bit binary format, with every result the nearest representable
number and a half going to the even significand.
-/

namespace FeatureRunner.Number

/-- A floating-point number. A finite one is `significand * 2 ^ exponent` with its sign, where the
significand has 53 binary digits unless the exponent is the least one, -1074. -/
inductive Binary64
  | nan
  | infinity (negative : Bool)
  | finite (negative : Bool) (significand : Nat) (exponent : Int)
  deriving DecidableEq, Repr

namespace Binary64

/-- The least exponent. -/
def leastExponent : Int := -1074

/-- The greatest exponent. -/
def greatestExponent : Int := 971

/-- `2 ^ exponent` as a quotient of natural numbers. -/
def powerOfTwo (exponent : Int) : Nat × Nat :=
  if 0 ≤ exponent then (Nat.pow 2 exponent.toNat, 1) else (1, Nat.pow 2 (-exponent).toNat)

/-- `dividend / divisor` in units of `2 ^ exponent`, rounded. -/
def significandAt (dividend divisor : Nat) (exponent : Int) : Nat :=
  let (upper, lower) := powerOfTwo exponent
  roundQuotient (dividend * lower) (divisor * upper)

/-- The exponent at which `dividend / divisor` has 53 binary digits. -/
def exponentOf (dividend divisor : Nat) : Int :=
  let guess : Int := (dividend.log2 : Int) - divisor.log2 - 52
  let (upper, lower) := powerOfTwo guess
  if Nat.pow 2 52 * (divisor * upper) ≤ dividend * lower then guess else guess - 1

/-- The number nearest to a quotient with the given sign. -/
def ofQuotient (negative : Bool) (dividend divisor : Nat) : Binary64 :=
  if dividend = 0 then finite negative 0 leastExponent
  else
    let exponent := max (exponentOf dividend divisor) leastExponent
    let rounded := significandAt dividend divisor exponent
    let (significand, exponent) :=
      if rounded = Nat.pow 2 53 then (Nat.pow 2 52, exponent + 1) else (rounded, exponent)
    if exponent ≤ greatestExponent then finite negative significand exponent
    else infinity negative

def ofInt (value : Int) : Binary64 :=
  ofQuotient (value < 0) value.natAbs 1

/-- The number nearest to `digits * 10 ^ exponent`. Quotients beyond every finite number and below
the half of the least one are settled without the power of ten. -/
def ofDecimal (negative : Bool) (digits : Nat) (exponent : Int) : Binary64 :=
  if digits = 0 then finite negative 0 leastExponent
  else
    let size : Int := (Nat.toDigits 10 digits).length + exponent
    if 400 < size then infinity negative
    else if size < -400 then finite negative 0 leastExponent
    else if 0 ≤ exponent then ofQuotient negative (digits * Nat.pow 10 exponent.toNat) 1
    else ofQuotient negative digits (Nat.pow 10 (-exponent).toNat)

def isZero : Binary64 → Bool
  | finite _ significand _ => significand = 0
  | _ => false

def isNegative : Binary64 → Bool
  | nan => false
  | infinity negative => negative
  | finite negative _ _ => negative

/-- The magnitude of a finite number as a quotient. -/
def magnitude (significand : Nat) (exponent : Int) : Nat × Nat :=
  let (upper, lower) := powerOfTwo exponent
  (significand * upper, lower)

/-- A finite number as a signed dividend and a divisor. -/
def quotient? : Binary64 → Option (Int × Nat)
  | finite negative significand exponent =>
    let (dividend, divisor) := magnitude significand exponent
    some (if negative then -(dividend : Int) else dividend, divisor)
  | _ => none

/-- The number nearest to a quotient with a signed dividend; a zero keeps the given sign. -/
def ofSigned (negativeZero : Bool) (dividend : Int) (divisor : Nat) : Binary64 :=
  ofQuotient (if dividend = 0 then negativeZero else dividend < 0) dividend.natAbs divisor

def neg : Binary64 → Binary64
  | nan => nan
  | infinity negative => infinity !negative
  | finite negative significand exponent => finite (!negative) significand exponent

def add (x y : Binary64) : Binary64 :=
  match x.quotient?, y.quotient? with
  | some (a, b), some (c, d) =>
    ofSigned (x.isNegative && y.isNegative) (a * d + c * b) (b * d)
  | some _, none => y
  | none, some _ => x
  | none, none => if x = y then x else nan

def mul (x y : Binary64) : Binary64 :=
  let negative := x.isNegative != y.isNegative
  match x.quotient?, y.quotient? with
  | some (a, b), some (c, d) => ofQuotient negative (a * c).natAbs (b * d)
  | _, _ =>
    if x = nan || y = nan || x.isZero || y.isZero then nan else infinity negative

/-- The quotient of two numbers, the second of which is not zero. -/
def div (x y : Binary64) : Binary64 :=
  let negative := x.isNegative != y.isNegative
  match x.quotient?, y.quotient? with
  | some (a, b), some (c, d) => ofQuotient negative (a.natAbs * d) (b * c.natAbs)
  | some _, none => if y = nan then nan else finite negative 0 leastExponent
  | none, some _ => if x = nan then nan else infinity negative
  | none, none => nan

/-- Whether the first number is less than the second; nothing is less than or greater than `nan`. -/
def less (x y : Binary64) : Bool :=
  match x, y with
  | nan, _ => false
  | _, nan => false
  | infinity a, infinity b => a && !b
  | infinity negative, finite _ _ _ => negative
  | finite _ _ _, infinity negative => !negative
  | finite _ _ _, finite _ _ _ =>
    match x.quotient?, y.quotient? with
    | some (a, b), some (c, d) => a * d < c * b
    | _, _ => false

/-- Equality of values: the two zeros are equal and `nan` differs from itself. -/
def same (x y : Binary64) : Bool :=
  x != nan && (x == y || (x.isZero && y.isZero))

/-- A number with `places` decimal places: the nearest decimal, a half going to the even digit,
and then the number nearest to it. -/
def roundPlaces (places : Nat) (x : Binary64) : Binary64 :=
  match x with
  | finite negative significand exponent =>
    let (dividend, divisor) := magnitude significand exponent
    ofQuotient negative (roundQuotient (dividend * Nat.pow 10 places) divisor) (Nat.pow 10 places)
  | other => other

end Binary64

end FeatureRunner.Number
