/-!
Quotients of natural numbers rounded to the nearest whole number, with a half going to the even
neighbour.
-/

namespace FeatureRunner.Number

/-- The whole number nearest to `dividend / divisor`; a half goes to the even neighbour. -/
def roundQuotient (dividend divisor : Nat) : Nat :=
  let whole := dividend / divisor
  let twice := 2 * (dividend % divisor)
  if twice < divisor then whole
  else if divisor < twice then whole + 1
  else if whole % 2 = 0 then whole else whole + 1

/-- A rounded quotient lies within half a unit of the quotient. -/
theorem roundQuotient_near (dividend : Nat) {divisor : Nat} (positive : 0 < divisor) :
    2 * dividend ≤ 2 * (roundQuotient dividend divisor * divisor) + divisor ∧
      2 * (roundQuotient dividend divisor * divisor) ≤ 2 * dividend + divisor := by
  have parts := Nat.div_add_mod dividend divisor
  have small := Nat.mod_lt dividend positive
  have commuted : divisor * (dividend / divisor) = dividend / divisor * divisor := Nat.mul_comm _ _
  unfold roundQuotient
  simp only
  split
  · constructor <;> omega
  · split
    · rw [Nat.add_mul, Nat.one_mul]
      constructor <;> omega
    · split
      · constructor <;> omega
      · rw [Nat.add_mul, Nat.one_mul]
        constructor <;> omega

end FeatureRunner.Number
