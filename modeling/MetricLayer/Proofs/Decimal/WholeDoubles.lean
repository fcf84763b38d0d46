import MetricLayer.Proofs.Decimal.SharedDoubles

/-!
# Whole numbers that are doubles

A whole number is a double if its digits beyond the first 53 are zero. Rounding leaves such a number
as it is and moves every other one. A double that is a whole number shows it in its form.
-/

namespace MetricLayer.Decimal.Binary

section Forms

variable {value first second : Binary} {n : Int}

theorem toInt?_of_toRat (h : value.toRat = n) : value.toInt? = some n := by
  have hpositive : (value.denominator : ℚ) ≠ 0 := by exact_mod_cast value.denominator_pos.ne'
  have hmagnitude := magnitude_of_toRat h
  rw [← numerator_div_denominator, div_eq_iff hpositive] at hmagnitude
  have hnumerator : value.numerator = n.natAbs * value.denominator := by exact_mod_cast hmagnitude
  rw [toInt?, hnumerator, Nat.mul_mod_left, if_pos rfl, Nat.mul_div_cancel _ value.denominator_pos]
  rw [toRat, magnitude_of_toRat h, ← Int.cast_natCast] at h
  dsimp only
  congr 1
  cases hnegative : value.negative with
  | true =>
      rw [hnegative, if_pos rfl, ← Int.cast_neg] at h
      rw [if_pos rfl]
      exact Int.cast_injective h
  | false =>
      rw [hnegative, if_neg Bool.false_ne_true] at h
      rw [if_neg Bool.false_ne_true]
      exact Int.cast_injective h

/-- Other than zero, a number has one form. -/
theorem eq_of_toRat_eq (hfirst : first.Normal) (hsecond : second.Normal)
    (h : first.toRat = second.toRat) (hzero : first.toRat ≠ 0) : first = second := by
  have hmagnitude : first.magnitude = second.magnitude := by rw [← abs_toRat, ← abs_toRat, h]
  have hnames := first.names_magnitude
  rw [hmagnitude] at hnames
  obtain ⟨hsignificand, hexponent⟩ := hnames.unique second.names_magnitude hfirst hsecond
  have hnegative : first.negative = second.negative := by
    rw [toRat, hmagnitude] at hzero
    rw [toRat, toRat, hmagnitude] at h
    cases hsign : first.negative <;> cases hsign' : second.negative
    · rfl
    · rw [hsign, hsign', if_neg Bool.false_ne_true, if_pos rfl] at h
      rw [hsign, if_neg Bool.false_ne_true] at hzero
      exact absurd (self_eq_neg.mp h) hzero
    · rw [hsign, hsign', if_pos rfl, if_neg Bool.false_ne_true] at h
      rw [hsign, if_pos rfl, h] at hzero
      exact absurd (self_eq_neg.mp h.symm) hzero
    · rfl
  cases first
  cases second
  simp_all

end Forms

section Intervals

variable {value : Binary}

/-- A fraction keeps its distance from whole numbers, so its interval holds none. -/
theorem Names.exists_toInt? {n : Nat} (h : value.Names n) : ∃ m, value.toInt? = some m := by
  have hwhole : value.numerator % value.denominator = 0 := by
    by_cases hexponent : 0 ≤ value.exponent
    · have hone : value.denominator = 1 := by
        rw [denominator, Int.toNat_of_nonpos (by omega)]
        rfl
      rw [hone, Nat.mod_one]
    · obtain ⟨places, hplaces⟩ : ∃ places : ℕ, value.exponent = -places :=
        ⟨value.exponent.natAbs, by omega⟩
      have hunit : ((1 : ℕ) : ℚ) = 2 ^ (value.exponent - 2) * 2 ^ (places + 2) := by
        have hcancel : -(places : ℤ) - 2 + (places + 2 : ℕ) = 0 := by omega
        rw [hplaces, ← zpow_natCast, ← zpow_add₀ (by norm_num), hcancel, zpow_zero, Nat.cast_one]
      have hpoint : ((n * 2 ^ (places + 2) : ℕ) : ℚ) = n * 2 ^ (places + 2) := by push_cast; rfl
      obtain ⟨hlower, hupper⟩ := (names_iff (by positivity) hunit hpoint).mp h
      have hlow := (reaches_iff.mp hlower).1
      have hhigh := (reaches_iff.mp hupper).1
      have hsignificand : value.significand = n * 2 ^ places := by
        rw [pow_add, lowerEnd_eq] at hlow
        rw [pow_add, upperEnd] at hhigh
        generalize hscaled : n * 2 ^ places = scaled
        rw [← mul_assoc, hscaled] at hlow hhigh
        split at hlow <;> omega
      have hnumerator : value.numerator = n * 2 ^ places := by
        have hnone : value.exponent.toNat = 0 := by omega
        rw [numerator, hnone, hsignificand]
        exact Nat.mul_one _
      have hdenominator : value.denominator = 2 ^ places := by
        have hcount : (-value.exponent).toNat = places := by omega
        rw [denominator, hcount]
        rfl
      rw [hnumerator, hdenominator, Nat.mul_mod_left]
  exact ⟨_, if_pos hwhole⟩

/-- The interval does not reach down to half of the number. -/
theorem Names.magnitude_le_double {decimal : ℚ} (h : value.Names decimal) :
    value.magnitude ≤ 2 * decimal := by
  have hunit : (0 : ℚ) < 2 ^ (value.exponent - 2) := by positivity
  have hends : 4 * value.significand ≤ 2 * value.lowerEnd := by
    rw [lowerEnd_eq]
    split <;> omega
  have hcast : ((4 * value.significand : ℕ) : ℚ) ≤ 2 * value.lowerEnd := by exact_mod_cast hends
  rw [magnitude_eq]
  calc ((4 * value.significand : ℕ) : ℚ) * 2 ^ (value.exponent - 2)
      ≤ 2 * value.lowerEnd * 2 ^ (value.exponent - 2) :=
        mul_le_mul_of_nonneg_right hcast hunit.le
    _ = 2 * (value.lowerEnd * 2 ^ (value.exponent - 2)) := mul_assoc _ _ _
    _ ≤ 2 * decimal := mul_le_mul_of_nonneg_left h.lower_le (by norm_num)

end Intervals

/-- The digits beyond the first 53 are zero. -/
def HasDouble (n : Nat) : Prop := n % 2 ^ (n.log2 - 52) = 0

instance (n : Nat) : Decidable (HasDouble n) := inferInstanceAs (Decidable (_ = _))

theorem hasDouble_of_lt {n : Nat} (h : n < twoTo 53) : HasDouble n := by
  have hlog : n.log2 - 52 = 0 := by
    rcases Nat.eq_zero_or_pos n with rfl | hpos
    · decide
    · have hlog := (Nat.log2_lt hpos.ne').mpr h
      omega
  rw [HasDouble, hlog, pow_zero, Nat.mod_one]

theorem hasDouble_mul_pow {significand shift : Nat} (h : significand < twoTo 53) :
    HasDouble (significand * 2 ^ shift) := by
  rcases Nat.eq_zero_or_pos significand with rfl | hpos
  · rw [zero_mul]
    exact hasDouble_of_lt (twoTo_pos 53)
  · have hbound : significand * 2 ^ shift < 2 ^ (53 + shift) := by
      rw [pow_add]
      exact Nat.mul_lt_mul_of_pos_right h (Nat.pow_pos (by decide))
    have hne : significand * 2 ^ shift ≠ 0 := by positivity
    have hlog := (Nat.log2_lt hne).mpr hbound
    exact Nat.mod_eq_zero_of_dvd
      (dvd_mul_of_dvd_right (pow_dvd_pow 2 (by omega)) _)

theorem hasDouble_of_ownDouble {n : Nat} (h : OwnDouble n) : HasDouble n := by
  rcases h with hsmall | ⟨hlt, heven⟩
  · exact hasDouble_of_lt hsmall
  · have hhalf : n = n / 2 * 2 ^ 1 := by omega
    have hlt_half : n / 2 < twoTo 53 := by
      rw [twoTo_53]
      omega
    rw [hhalf]
    exact hasDouble_mul_pow hlt_half

theorem hasDouble_of_magnitude {value : Binary} {n : Nat} (hnormal : value.Normal)
    (h : value.magnitude = n) : HasDouble n := by
  by_cases hpositive : 0 < value.exponent
  · obtain ⟨shift, _, rfl, _⟩ := exists_exponent_of_magnitude hnormal h hpositive
    exact hasDouble_mul_pow hnormal.significand_lt
  · have hunit : (2 : ℚ) ^ value.exponent ≤ 2 ^ (0 : ℤ) :=
      zpow_le_zpow_right₀ (by norm_num) (not_lt.mp hpositive)
    have hle : (n : ℚ) ≤ value.significand := by
      rw [zpow_zero] at hunit
      rw [← h, magnitude]
      exact mul_le_of_le_one_right (Nat.cast_nonneg _) hunit
    have hle_nat : n ≤ value.significand := by exact_mod_cast hle
    exact hasDouble_of_lt (hle_nat.trans_lt hnormal.significand_lt)

/-- Such a number is the magnitude of a form. -/
theorem exists_magnitude_of_hasDouble {n : Nat} (h : HasDouble n) (negative : Bool) :
    ∃ value : Binary, value.Normal ∧ value.negative = negative ∧ value.magnitude = n := by
  rcases Nat.eq_zero_or_pos n with rfl | hpos
  · refine ⟨⟨negative, 0, -1074⟩, ⟨twoTo_pos 53, le_rfl, .inr rfl⟩, rfl, ?_⟩
    rw [magnitude, Nat.cast_zero, zero_mul]
  · by_cases hsmall : n < twoTo 53
    · exact exists_magnitude_of_lt hpos hsmall negative
    · have hlarge : twoTo 52 ≤ twoTo 53 := by decide
      have hbounds := @keptQuotient_bounds n 1 (by decide)
        (by rw [Nat.div_one]; exact hlarge.trans (not_lt.mp hsmall))
      dsimp only at hbounds
      rw [Nat.div_one, one_mul] at hbounds
      obtain ⟨hlow, hhigh, _⟩ := hbounds
      have hunit : 0 < 2 ^ (n.log2 - 52) := Nat.pow_pos (by decide)
      have hquotient := Nat.div_mul_cancel (Nat.dvd_of_mod_eq_zero h)
      refine ⟨⟨negative, n / 2 ^ (n.log2 - 52), ((n.log2 - 52 : ℕ) : Int)⟩,
        ⟨(Nat.div_lt_iff_lt_mul hunit).mpr hhigh, by dsimp only; omega,
          .inl ((Nat.le_div_iff_mul_le hunit).mpr hlow)⟩, rfl, ?_⟩
      rw [magnitude]
      dsimp only
      rw [zpow_natCast]
      exact_mod_cast hquotient

/-- Rounding leaves a whole number as it is just when that is a double. -/
theorem Rounds.toRat_eq_iff {value : Binary} {n : Int} (h : value.Rounds n) :
    value.toRat = n ↔ HasDouble n.natAbs := by
  constructor
  · intro hexact
    exact hasDouble_of_magnitude h.normal (magnitude_of_toRat hexact)
  · intro hdouble
    obtain ⟨form, hnormal, hnegative, hmagnitude⟩ :=
      exists_magnitude_of_hasDouble hdouble (decide (n < 0))
    refine h.toRat_of_exact hnormal ?_
    rw [toRat, hnegative, hmagnitude, Nat.cast_natAbs, Int.cast_abs]
    by_cases hneg : n < 0
    · rw [decide_eq_true hneg, if_pos rfl, abs_of_neg (Int.cast_lt_zero.mpr hneg), neg_neg]
    · rw [decide_eq_false hneg, if_neg Bool.false_ne_true,
        abs_of_nonneg (Int.cast_nonneg (not_lt.mp hneg))]

end MetricLayer.Decimal.Binary
