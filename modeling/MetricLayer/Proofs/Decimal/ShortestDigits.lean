import MetricLayer.Proofs.Decimal.Doubles

/-!
# The shortest digits name their double

Seventeen digits always suffice: on the finest grid the points are closer to each other than the
interval is wide. So the search for the shortest digits finds a decimal, and it finds it in the
interval.
-/

namespace MetricLayer.Decimal

theorem lt_tenTo_digitCount (n : Nat) : n < 10 ^ digitCount n :=
  (Nat.length_toDigits_le_iff (by decide) Nat.length_toDigits_pos).mp le_rfl

theorem tenTo_digitCount_le {n : Nat} (h : 0 < n) : 10 ^ (digitCount n - 1) ≤ n := by
  by_cases hone : digitCount n - 1 = 0
  · rw [hone, pow_zero]
    exact h
  · by_contra hlt
    have hle : digitCount n ≤ digitCount n - 1 :=
      (Nat.length_toDigits_le_iff (by decide) (Nat.pos_of_ne_zero hone)).mpr (not_le.mp hlt)
    omega

theorem digitCount_pos (n : Nat) : 0 < digitCount n := Nat.length_toDigits_pos

theorem pow_pointPosition_le {numerator denominator : Nat} (hnumerator : 0 < numerator)
    (hdenominator : 0 < denominator) :
    (10 : ℚ) ^ (pointPosition numerator denominator - 1) ≤ numerator / denominator := by
  have hcast : (0 : ℚ) < denominator := Nat.cast_pos.mpr hdenominator
  rw [le_div_iff₀ hcast]
  unfold pointPosition
  split
  · rename_i hle
    have hquotient : 0 < numerator / denominator := Nat.div_pos hle hdenominator
    have hdigits := digitCount_pos (numerator / denominator)
    have hexponent : (digitCount (numerator / denominator) : ℤ) - 1 =
        (digitCount (numerator / denominator) - 1 : ℕ) := by
      omega
    rw [hexponent, zpow_natCast]
    have hnat : 10 ^ (digitCount (numerator / denominator) - 1) * denominator ≤ numerator :=
      (Nat.mul_le_mul_right _ (tenTo_digitCount_le hquotient)).trans (Nat.div_mul_le_self _ _)
    exact_mod_cast hnat
  · rename_i hlt
    have hlarge := lt_tenTo_digitCount ((denominator - 1) / numerator)
    have hnat : denominator ≤ 10 ^ digitCount ((denominator - 1) / numerator) * numerator := by
      have hmul := (Nat.div_lt_iff_lt_mul hnumerator).mp hlarge
      omega
    have hexponent : (1 : ℤ) - digitCount ((denominator - 1) / numerator) - 1 =
        -(digitCount ((denominator - 1) / numerator) : ℤ) := by
      omega
    rw [hexponent, zpow_neg, zpow_natCast, inv_mul_le_iff₀ (by positivity)]
    exact_mod_cast hnat

theorem lt_pow_pointPosition {numerator denominator : Nat} (hnumerator : 0 < numerator)
    (hdenominator : 0 < denominator) :
    (numerator : ℚ) / denominator < 10 ^ pointPosition numerator denominator := by
  have hcast : (0 : ℚ) < denominator := Nat.cast_pos.mpr hdenominator
  rw [div_lt_iff₀ hcast]
  unfold pointPosition
  split
  · have hnat : numerator < 10 ^ digitCount (numerator / denominator) * denominator :=
      (Nat.div_lt_iff_lt_mul hdenominator).mp (lt_tenTo_digitCount _)
    rw [zpow_natCast]
    exact_mod_cast hnat
  · rename_i hlt
    have hquotient : 0 < (denominator - 1) / numerator := Nat.div_pos (by omega) hnumerator
    have hdigits := digitCount_pos ((denominator - 1) / numerator)
    have hnat : 10 ^ (digitCount ((denominator - 1) / numerator) - 1) * numerator <
        denominator := by
      have hle := (Nat.le_div_iff_mul_le hnumerator).mp (tenTo_digitCount_le hquotient)
      omega
    have hexponent : (1 : ℤ) - digitCount ((denominator - 1) / numerator) =
        -((digitCount ((denominator - 1) / numerator) - 1 : ℕ) : ℤ) := by
      omega
    rw [hexponent, zpow_neg, zpow_natCast, lt_inv_mul_iff₀ (by positivity)]
    exact_mod_cast hnat

namespace Binary

/-- A quarter of a unit of the significand, and a step of the grid, as multiples of one number. -/
def gridUnit (value : Binary) (exponent : Int) : Nat :=
  twoTo (value.exponent - 2).toNat * tenTo (-exponent).toNat

def gridStep (value : Binary) (exponent : Int) : Nat :=
  twoTo (-(value.exponent - 2)).toNat * tenTo exponent.toNat

variable {value : Binary} {exponent : Int} {coefficient : Nat}

theorem gridPoint?_eq (tie : Tie) (value : Binary) (exponent : Int) :
    value.gridPoint? tie exponent =
      let middle := 4 * value.significand * value.gridUnit exponent
      let step := value.gridStep exponent
      match value.reaches (value.lowerEnd * value.gridUnit exponent) (middle / step * step),
          value.reaches ((middle / step + 1) * step) (value.upperEnd * value.gridUnit exponent) with
      | true, true => some (roundDiv tie middle step)
      | true, false => some (middle / step)
      | false, true => some (middle / step + 1)
      | false, false => none := rfl

theorem gridUnit_pos (value : Binary) (exponent : Int) : 0 < value.gridUnit exponent :=
  Nat.mul_pos (twoTo_pos _) (tenTo_pos _)

theorem gridStep_pos (value : Binary) (exponent : Int) : 0 < value.gridStep exponent :=
  Nat.mul_pos (twoTo_pos _) (tenTo_pos _)

/-- Both are the same multiple of what they stand for. -/
theorem exists_scale (value : Binary) (exponent : Int) :
    ∃ scale : ℚ, 0 < scale ∧
      (value.gridUnit exponent : ℚ) = 2 ^ (value.exponent - 2) * scale ∧
      (value.gridStep exponent : ℚ) = 10 ^ exponent * scale := by
  refine ⟨2 ^ (-(value.exponent - 2)).toNat * 10 ^ (-exponent).toNat, by positivity, ?_, ?_⟩
  · rw [gridUnit, twoTo_eq_pow, tenTo_eq_pow, Nat.cast_mul, Nat.cast_pow, Nat.cast_pow,
      ← mul_assoc, Nat.cast_ofNat, zpow_mul_pow_neg (by norm_num), Nat.cast_ofNat]
  · rw [gridStep, twoTo_eq_pow, tenTo_eq_pow, Nat.cast_mul, Nat.cast_pow, Nat.cast_pow,
      Nat.cast_ofNat, Nat.cast_ofNat, ← zpow_mul_pow_neg (by norm_num) exponent]
    ring

/-- A point of the grid that both ends reach names the magnitude. -/
theorem names_of_reaches
    (hlower : value.reaches (value.lowerEnd * value.gridUnit exponent)
      (coefficient * value.gridStep exponent) = true)
    (hupper : value.reaches (coefficient * value.gridStep exponent)
      (value.upperEnd * value.gridUnit exponent) = true) :
    value.Names (coefficient * 10 ^ exponent) := by
  obtain ⟨scale, hscale, hunit, hstep⟩ := exists_scale value exponent
  have hpoint : ((coefficient * value.gridStep exponent : ℕ) : ℚ) =
      coefficient * 10 ^ exponent * scale := by
    rw [Nat.cast_mul, hstep, mul_assoc]
  exact (names_iff hscale hunit hpoint).mpr ⟨hlower, hupper⟩

theorem reaches_of_lt {low high : Nat} (h : low < high) : value.reaches low high = true :=
  reaches_iff.mpr ⟨h.le, fun _ => h.ne⟩

theorem le_of_not_reaches {low high : Nat} (h : value.reaches low high = false) : high ≤ low := by
  by_contra hlt
  rw [reaches_of_lt (not_le.mp hlt)] at h
  cases h

/-- Where the number stands on the grid. -/
theorem middle_bounds (value : Binary) (exponent : Int) :
    let middle := 4 * value.significand * value.gridUnit exponent
    let below := middle / value.gridStep exponent
    value.lowerEnd * value.gridUnit exponent ≤ middle ∧
      middle < value.upperEnd * value.gridUnit exponent ∧
      below * value.gridStep exponent ≤ middle ∧
      middle < (below + 1) * value.gridStep exponent := by
  refine ⟨?_, ?_, Nat.div_mul_le_self _ _, ?_⟩
  · exact Nat.mul_le_mul_right _ value.lowerEnd_le
  · exact Nat.mul_lt_mul_of_pos_right value.lt_upperEnd (value.gridUnit_pos exponent)
  · have hlt := Nat.lt_mul_div_succ (4 * value.significand * value.gridUnit exponent)
      (value.gridStep_pos exponent)
    exact hlt.trans_eq (Nat.mul_comm _ _)

theorem names_of_gridPoint? {tie : Tie} (h : value.gridPoint? tie exponent = some coefficient) :
    value.Names (coefficient * 10 ^ exponent) := by
  obtain ⟨hlower, hupper, hfloor, hceil⟩ := middle_bounds value exponent
  rw [gridPoint?_eq] at h
  dsimp only at h hlower hupper hfloor hceil
  generalize 4 * value.significand * value.gridUnit exponent = middle at *
  have hbelow : value.reaches (middle / value.gridStep exponent * value.gridStep exponent)
      (value.upperEnd * value.gridUnit exponent) = true :=
    reaches_of_lt (hfloor.trans_lt hupper)
  have habove : value.reaches (value.lowerEnd * value.gridUnit exponent)
      ((middle / value.gridStep exponent + 1) * value.gridStep exponent) = true :=
    reaches_of_lt (hlower.trans_lt hceil)
  split at h
  · rename_i hfirst hsecond
    obtain rfl := Option.some.inj h
    rcases roundDiv_cases tie middle (value.gridStep exponent) with heq | heq
    · rw [heq]
      exact names_of_reaches hfirst hbelow
    · rw [heq]
      exact names_of_reaches habove hsecond
  · rename_i hfirst _
    obtain rfl := Option.some.inj h
    exact names_of_reaches hfirst hbelow
  · rename_i _ hsecond
    obtain rfl := Option.some.inj h
    exact names_of_reaches habove hsecond
  · cases h

/-- With seventeen digits a step is small against the number. -/
theorem gridStep_mul_le (hpositive : 0 < value.significand) :
    value.gridStep (pointPosition value.numerator value.denominator - 17) * 10 ^ 16 ≤
      4 * value.significand *
        value.gridUnit (pointPosition value.numerator value.denominator - 17) := by
  have hnumerator : 0 < value.numerator := Nat.mul_pos hpositive (twoTo_pos _)
  have hposition := pow_pointPosition_le hnumerator value.denominator_pos
  rw [numerator_div_denominator] at hposition
  generalize pointPosition value.numerator value.denominator = position at *
  obtain ⟨scale, hscale, hunit, hstep⟩ := exists_scale value (position - 17)
  have hten : (10 : ℚ) ^ (position - 17) * 10 ^ 16 = 10 ^ (position - 1) := by
    rw [← zpow_natCast, ← zpow_add₀ (by norm_num)]
    congr 1
    omega
  have hcast : ((value.gridStep (position - 17) * 10 ^ 16 : ℕ) : ℚ) ≤
      (4 * value.significand * value.gridUnit (position - 17) : ℕ) := by
    calc ((value.gridStep (position - 17) * 10 ^ 16 : ℕ) : ℚ)
        = 10 ^ (position - 17) * 10 ^ 16 * scale := by
          rw [Nat.cast_mul, hstep, Nat.cast_pow, Nat.cast_ofNat]
          ring
      _ = 10 ^ (position - 1) * scale := by rw [hten]
      _ ≤ value.magnitude * scale := mul_le_mul_of_nonneg_right hposition hscale.le
      _ = (4 * value.significand * value.gridUnit (position - 17) : ℕ) := by
          rw [magnitude_eq, mul_assoc, ← hunit, ← Nat.cast_mul]
  exact_mod_cast hcast

/-- Seventeen digits suffice. -/
theorem gridPoint?_ne_none (hnormal : value.Normal) (hpositive : 0 < value.significand)
    (tie : Tie) :
    value.gridPoint? tie (pointPosition value.numerator value.denominator - 17) ≠ none := by
  have hsmall := gridStep_mul_le hpositive
  generalize pointPosition value.numerator value.denominator - 17 = exponent at *
  intro hnone
  rw [gridPoint?_eq] at hnone
  dsimp only at hnone
  generalize 4 * value.significand * value.gridUnit exponent / value.gridStep exponent = below
    at hnone
  split at hnone
  · cases hnone
  · cases hnone
  · cases hnone
  · rename_i hfirst hsecond
    have hlower := le_of_not_reaches hfirst
    have hupper := le_of_not_reaches hsecond
    have hwidth : value.upperEnd * 10 ^ 16 * value.gridUnit exponent ≤
        (value.lowerEnd * 10 ^ 16 + 4 * value.significand) * value.gridUnit exponent := by
      rw [Nat.add_mul, one_mul] at hupper
      nlinarith
    have hends := Nat.le_of_mul_le_mul_right hwidth (gridUnit_pos value exponent)
    have hlt := hnormal.significand_lt
    rw [twoTo_53] at hlt
    rw [upperEnd, lowerEnd_eq] at hends
    split at hends <;> omega

/-- The search ends on a grid of seventeen digits at most. -/
theorem exists_gridPoint? (hnormal : value.Normal) (hpositive : 0 < value.significand) (tie : Tie) :
    ∃ count : Nat, count ≤ 17 ∧ ∃ coefficient,
      value.gridPoint? tie (pointPosition value.numerator value.denominator - count) =
          some coefficient ∧
        value.shortest tie =
          if coefficient = tenTo count then
            ⟨1, pointPosition value.numerator value.denominator - count + count⟩
          else ⟨coefficient, pointPosition value.numerator value.denominator - count⟩ := by
  rw [shortest, if_neg hpositive.ne']
  dsimp only
  have hlast := gridPoint?_ne_none hnormal hpositive tie
  generalize pointPosition value.numerator value.denominator = position at *
  cases hfound : (List.range 17).findSome? fun index =>
      (value.gridPoint? tie (position - (index + 1 : ℕ))).map fun coefficient =>
        if coefficient = tenTo (index + 1) then
          Digits.mk 1 (position - (index + 1 : ℕ) + (index + 1 : ℕ))
        else ⟨coefficient, position - (index + 1 : ℕ)⟩ with
  | none =>
      have hnone := List.findSome?_eq_none_iff.mp hfound 16 (by decide)
      exact absurd (Option.map_eq_none_iff.mp hnone) hlast
  | some digits =>
      obtain ⟨index, hmem, hindex⟩ := List.exists_of_findSome?_eq_some hfound
      obtain ⟨coefficient, hpoint, hdigits⟩ := Option.map_eq_some_iff.mp hindex
      exact ⟨index + 1, List.mem_range.mp hmem, coefficient, hpoint, hdigits.symm⟩

theorem names_shortest (hnormal : value.Normal) (hpositive : 0 < value.significand) (tie : Tie) :
    value.Names ((value.shortest tie).coefficient * 10 ^ (value.shortest tie).exponent) := by
  obtain ⟨count, _, coefficient, hpoint, hshortest⟩ := exists_gridPoint? hnormal hpositive tie
  have hnames := names_of_gridPoint? hpoint
  rw [hshortest]
  generalize pointPosition value.numerator value.denominator - (count : Int) = exponent at *
  split
  · rename_i hten
    have hpoint : (coefficient : ℚ) * 10 ^ exponent = (1 : ℕ) * 10 ^ (exponent + count) := by
      rw [hten, tenTo_eq_pow, zpow_add₀ (by norm_num), zpow_natCast, Nat.cast_pow,
        Nat.cast_ofNat, Nat.cast_one]
      ring
    rw [← hpoint]
    exact hnames
  · exact hnames

/-- On a grid of so many digits the point has no more of them, or it is the next power of ten. -/
theorem le_tenTo_of_gridPoint? {tie : Tie} {count : Nat} (hpositive : 0 < value.significand)
    (h : value.gridPoint? tie (pointPosition value.numerator value.denominator - count) =
      some coefficient) : coefficient ≤ tenTo count := by
  have hnumerator : 0 < value.numerator := Nat.mul_pos hpositive (twoTo_pos _)
  have hposition := lt_pow_pointPosition hnumerator value.denominator_pos
  rw [numerator_div_denominator] at hposition
  generalize pointPosition value.numerator value.denominator = position at *
  obtain ⟨scale, hscale, hunit, hstep⟩ := exists_scale value (position - count)
  have hten : (10 : ℚ) ^ position = 10 ^ count * 10 ^ (position - count) := by
    rw [← zpow_natCast, ← zpow_add₀ (by norm_num)]
    congr 1
    omega
  have hmiddle : ((4 * value.significand * value.gridUnit (position - count) : ℕ) : ℚ) <
      (tenTo count * value.gridStep (position - count) : ℕ) := by
    calc ((4 * value.significand * value.gridUnit (position - count) : ℕ) : ℚ)
        = value.magnitude * scale := by rw [magnitude_eq, Nat.cast_mul, hunit, mul_assoc]
      _ < 10 ^ position * scale := mul_lt_mul_of_pos_right hposition hscale
      _ = (tenTo count * value.gridStep (position - count) : ℕ) := by
          rw [hten, Nat.cast_mul, hstep, tenTo_eq_pow, Nat.cast_pow, Nat.cast_ofNat]
          ring
  have hbelow : 4 * value.significand * value.gridUnit (position - count) /
      value.gridStep (position - count) < tenTo count :=
    (Nat.div_lt_iff_lt_mul (gridStep_pos value _)).mpr (by exact_mod_cast hmiddle)
  rw [gridPoint?_eq] at h
  dsimp only at h
  generalize hround : roundDiv tie _ _ = rounded at h
  have hrounded := roundDiv_cases tie (4 * value.significand * value.gridUnit (position - count))
    (value.gridStep (position - count))
  rw [hround] at hrounded
  split at h
  · obtain rfl := Option.some.inj h
    rcases hrounded with rfl | rfl <;> omega
  · obtain rfl := Option.some.inj h
    exact hbelow.le
  · obtain rfl := Option.some.inj h
    exact hbelow
  · cases h

theorem coefficient_shortest_lt (hnormal : value.Normal) (hpositive : 0 < value.significand)
    (tie : Tie) : (value.shortest tie).coefficient < 10 ^ 17 := by
  obtain ⟨count, hcount, coefficient, hpoint, hshortest⟩ :=
    exists_gridPoint? hnormal hpositive tie
  have hle := le_tenTo_of_gridPoint? hpositive hpoint
  rw [hshortest]
  split
  · norm_num
  · rename_i hten
    exact (lt_of_le_of_ne hle hten).trans_le (Nat.pow_le_pow_right (by decide) hcount)

/-- A positive number is not named by zero. -/
theorem Names.pos {decimal : ℚ} (h : value.Names decimal) (hpositive : 0 < value.significand) :
    0 < decimal := by
  have hends : 0 < value.lowerEnd := by
    rw [lowerEnd_eq]
    split <;> omega
  have hunit : (0 : ℚ) < 2 ^ (value.exponent - 2) := by positivity
  exact (mul_pos (Nat.cast_pos.mpr hends) hunit).trans_le h.lower_le

theorem coefficient_shortest_pos (hnormal : value.Normal) (hpositive : 0 < value.significand)
    (tie : Tie) : 0 < (value.shortest tie).coefficient := by
  have hpos := (names_shortest hnormal hpositive tie).pos hpositive
  refine Nat.pos_of_ne_zero fun hzero => ?_
  rw [hzero, Nat.cast_zero, zero_mul] at hpos
  exact lt_irrefl _ hpos

end Binary

end MetricLayer.Decimal
