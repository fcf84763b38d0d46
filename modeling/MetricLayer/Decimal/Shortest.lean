import MetricLayer.Decimal.Binary
import MetricLayer.Decimal.Rounding

/-!
# The fewest digits that read back

Reading a decimal rounds it to a nearest double, so a double is named by every decimal in the
interval of numbers that round to it. `shortest` takes the first grid of 1, 2, … 17 digits that has
a point in the interval, and on that grid the point nearest to the number.
-/

namespace MetricLayer.Decimal

/-- The decimal `coefficient · 10 ^ exponent`. -/
structure Digits where
  coefficient : Nat
  exponent : Int
deriving DecidableEq, Repr

def digitCount (n : Nat) : Nat := (Nat.toDigits 10 n).length

/-- The `d` with `10 ^ (d - 1) ≤ numerator / denominator < 10 ^ d`, for a positive quotient. -/
def pointPosition (numerator denominator : Nat) : Int :=
  if denominator ≤ numerator then digitCount (numerator / denominator)
  else 1 - (digitCount ((denominator - 1) / numerator) : Int)

/-- Four times the significand is the middle of the interval; below a power of two the lower half
is only half as wide. -/
def Binary.lowerEnd (value : Binary) : Nat :=
  if value.significand = twoTo 52 ∧ -1074 < value.exponent then 4 * value.significand - 1
  else 4 * value.significand - 2

def Binary.upperEnd (value : Binary) : Nat := 4 * value.significand + 2

/-- The chosen point of the grid `10 ^ exponent`, if it has one in the interval. -/
def Binary.gridPoint? (tie : Tie) (value : Binary) (exponent : Int) : Option Nat :=
  let scale := value.exponent - 2
  let unit := twoTo scale.toNat * tenTo (-exponent).toNat
  let step := twoTo (-scale).toNat * tenTo exponent.toNat
  let middle := 4 * value.significand * unit
  let below := middle / step
  let within (low high : Nat) : Bool :=
    if value.significand % 2 = 0 then decide (low ≤ high) else decide (low < high)
  match within (value.lowerEnd * unit) (below * step),
      within ((below + 1) * step) (value.upperEnd * unit) with
  | true, true => some (roundDiv tie middle step)
  | true, false => some below
  | false, true => some (below + 1)
  | false, false => none

def Binary.shortest (tie : Tie) (value : Binary) : Digits :=
  if value.significand = 0 then ⟨0, 0⟩
  else
    let position := pointPosition value.numerator value.denominator
    let found := (List.range 17).findSome? fun index =>
      let count : Nat := index + 1
      let exponent := position - count
      (value.gridPoint? tie exponent).map fun coefficient =>
        if coefficient = tenTo count then ⟨1, exponent + count⟩ else ⟨coefficient, exponent⟩
    found.getD ⟨value.numerator, 0⟩

end MetricLayer.Decimal
