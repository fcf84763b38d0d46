import MetricLayer.Decimal.Binary

/-!
# Rounding a quotient

`roundDiv` takes a quotient of natural numbers to a nearest whole number: `two_mul_roundDiv_le` and
`le_two_mul_roundDiv` say that it is off by at most one half. A quotient halfway between two whole
numbers goes where the tie rule says. A number at a fixed number of places is its exact binary value
rounded so to the nearest multiple of `10 ^ -places`, ties to even.
-/

namespace MetricLayer.Decimal

inductive Tie where
  | toEven
  | up
deriving DecidableEq, Repr

def Tie.roundsUp (tie : Tie) (quotient : Nat) : Bool :=
  match tie with
  | .toEven => quotient % 2 == 1
  | .up => true

def roundDiv (tie : Tie) (numerator denominator : Nat) : Nat :=
  let quotient := numerator / denominator
  let twice := 2 * (numerator % denominator)
  if twice < denominator then quotient
  else if twice = denominator then
    if tie.roundsUp quotient then quotient + 1 else quotient
  else quotient + 1

theorem roundDiv_cases (tie : Tie) (numerator denominator : Nat) :
    roundDiv tie numerator denominator = numerator / denominator ∨
      roundDiv tie numerator denominator = numerator / denominator + 1 := by
  unfold roundDiv
  simp only
  split
  · exact .inl rfl
  · split
    · split
      · exact .inr rfl
      · exact .inl rfl
    · exact .inr rfl

theorem two_mul_roundDiv_le (tie : Tie) (numerator : Nat) {denominator : Nat}
    (h : 0 < denominator) :
    2 * (denominator * roundDiv tie numerator denominator) ≤ 2 * numerator + denominator := by
  have hdiv := Nat.div_add_mod numerator denominator
  have hmod := Nat.mod_lt numerator h
  unfold roundDiv
  simp only
  split
  · omega
  · split
    · split
      · rw [Nat.mul_add]; omega
      · omega
    · rw [Nat.mul_add]; omega

theorem le_two_mul_roundDiv (tie : Tie) (numerator : Nat) {denominator : Nat}
    (h : 0 < denominator) :
    2 * numerator ≤ 2 * (denominator * roundDiv tie numerator denominator) + denominator := by
  have hdiv := Nat.div_add_mod numerator denominator
  have hmod := Nat.mod_lt numerator h
  unfold roundDiv
  simp only
  split
  · omega
  · split
    · split
      · rw [Nat.mul_add]; omega
      · omega
    · rw [Nat.mul_add]; omega

/-- Only an even number is off by one half. -/
theorem two_mul_ne_of_roundDiv_odd {numerator denominator : Nat} (h : 0 < denominator)
    (hodd : roundDiv .toEven numerator denominator % 2 = 1) :
    2 * (denominator * roundDiv .toEven numerator denominator) ≠ 2 * numerator + denominator ∧
      2 * numerator ≠ 2 * (denominator * roundDiv .toEven numerator denominator) + denominator := by
  have hdiv := Nat.div_add_mod numerator denominator
  have hmod := Nat.mod_lt numerator h
  unfold roundDiv at *
  simp only [Tie.roundsUp, beq_iff_eq] at *
  split at hodd
  · rename_i hless
    rw [if_pos hless]
    omega
  · rename_i hless
    rw [if_neg hless]
    split at hodd
    · split at hodd
      · omega
      · omega
    · rename_i htie
      rw [if_neg htie, Nat.mul_add]
      omega

/-- The magnitude in units of `10 ^ -places`. -/
def Binary.scaled (value : Binary) (places : Nat) : Nat :=
  roundDiv .toEven (value.numerator * tenTo places) value.denominator

/-- Writes `units · 10 ^ -places` with exactly that many places. -/
def placesText (units places : Nat) : List Char :=
  let whole := Nat.toDigits 10 (units / tenTo places)
  if places = 0 then whole
  else
    let fraction := Nat.toDigits 10 (units % tenTo places)
    whole ++ '.' :: List.replicate (places - fraction.length) '0' ++ fraction

def Binary.fixed (value : Binary) (places : Nat) : List Char :=
  (if value.negative then ['-'] else []) ++ placesText (value.scaled places) places

end MetricLayer.Decimal
