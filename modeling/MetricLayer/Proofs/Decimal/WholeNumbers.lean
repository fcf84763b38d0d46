import MetricLayer.Proofs.Decimal.Arithmetic

/-!
# Whole numbers as doubles

A whole number, or one times a power of ten, lies in the interval of the double that it is converted
to. Numbers of 53 bits are exact, and so are the powers of ten that they are multiplied with; all
others are rounded once.
-/

namespace MetricLayer.Decimal

open Float.Model Float.Model.UnpackedFloat
open Binary

theorem toFloat_toUInt64 {n : Nat} (hpos : 0 < n) (hlt : n < 18446744073709551616) :
    n.toUInt64.toFloat = Float.ofModel (Float.Model.pack
      (UnpackedFloat.round Format.binary64 .positive n 0)) := by
  have hnat : n.toUInt64.toNat = n := by
    change n % 18446744073709551616 = n
    omega
  have hmodel : n.toUInt64.toFloat = Float.ofModel (Float.Model.pack
      (UnpackedFloat.normalize Format.binary64 (n.toUInt64.toNat : Int) 0 .positive)) := rfl
  have hcompare : compare (n : Int) 0 = .gt := compare_gt_iff_gt.mpr (by omega)
  rw [hmodel, hnat, UnpackedFloat.normalize, hcompare]
  rfl

/-- A number below `2 ^ 53` has the form with a mantissa of 53 digits. -/
theorem shifted_bounds {n : Nat} (hpos : 0 < n) (hlt : n < twoTo 53) :
    twoTo 52 ≤ n * 2 ^ (52 - n.log2) ∧ n * 2 ^ (52 - n.log2) < twoTo 53 := by
  have hne : n ≠ 0 := by omega
  have hlog : n.log2 ≤ 52 := by
    have hlog := (Nat.log2_lt hne).mpr hlt
    omega
  have hlow : 2 ^ n.log2 ≤ n := (Nat.le_log2 hne).mp le_rfl
  have hhigh : n < 2 ^ (n.log2 + 1) := (Nat.log2_lt hne).mp (Nat.lt_succ_self _)
  have hunit : 0 < 2 ^ (52 - n.log2) := Nat.pow_pos (by decide)
  constructor
  · calc twoTo 52 = 2 ^ n.log2 * 2 ^ (52 - n.log2) := by
          rw [twoTo_eq_pow, ← pow_add]
          congr 1
          omega
      _ ≤ n * 2 ^ (52 - n.log2) := Nat.mul_le_mul_right _ hlow
  · calc n * 2 ^ (52 - n.log2)
        < 2 ^ (n.log2 + 1) * 2 ^ (52 - n.log2) := Nat.mul_lt_mul_of_pos_right hhigh hunit
      _ = twoTo 53 := by
          rw [twoTo_eq_pow, ← pow_add]
          congr 1
          omega

/-- The form of a number below `2 ^ 53`. -/
theorem exists_magnitude_of_lt {n : Nat} (hpos : 0 < n) (hlt : n < twoTo 53) (negative : Bool) :
    ∃ value : Binary, value.Normal ∧ value.negative = negative ∧ value.magnitude = n := by
  obtain ⟨hlow, hhigh⟩ := shifted_bounds hpos hlt
  have hlog := (Nat.log2_lt hpos.ne').mpr hlt
  refine ⟨⟨negative, n * 2 ^ (52 - n.log2), -((52 - n.log2 : ℕ) : Int)⟩,
    ⟨hhigh, by dsimp only; omega, .inl hlow⟩, rfl, ?_⟩
  rw [magnitude]
  dsimp only
  rw [zpow_neg, zpow_natCast, Nat.cast_mul, Nat.cast_pow, Nat.cast_ofNat]
  exact mul_inv_cancel_right₀ (by positivity) _

theorem natCast_lt_overflow {n : Nat} (hlt : n < 18446744073709551616) : (n : ℚ) < overflow := by
  have hcast : (n : ℚ) ≤ 10 ^ 20 := by exact_mod_cast (by omega : n ≤ 10 ^ 20)
  have hpow : (10 : ℚ) ^ 20 ≤ 10 ^ 308 := pow_le_pow_right₀ (by norm_num) (by norm_num)
  exact (hcast.trans hpow).trans_lt tenTo_lt_overflow

theorem exists_toFloat {n : Nat} (hpos : 0 < n) (hlt : n < twoTo 53) :
    ∃ value, ofFloat? n.toUInt64.toFloat = some value ∧ value.Approximates n ∧
      value.magnitude = n := by
  obtain ⟨hlow, hhigh⟩ := shifted_bounds hpos hlt
  obtain ⟨form, hnormal, _, hmagnitude⟩ := exists_magnitude_of_lt hpos hlt false
  have hbound : n < 18446744073709551616 := by
    rw [twoTo_53] at hlt
    omega
  have hlog := (Nat.log2_lt hpos.ne').mpr hlt
  have hshift : ((0 : Int) - max ((n.log2 : Int) + 0 - 52) (-1074)).toNat = 52 - n.log2 := by
    omega
  have hround : UnpackedFloat.round Format.binary64 .positive n 0 =
      roundWithAccuracy Format.binary64 .positive (n * 2 ^ (52 - n.log2))
        (-((52 - n.log2 : ℕ) : Int)) .exact := by
    unfold UnpackedFloat.round decreaseExponent
    rw [targetExponent_eq]
    dsimp only
    rw [hshift, Nat.shiftLeft_eq, zero_sub]
  have hvalue : ((n * 2 ^ (52 - n.log2) : ℕ) : ℚ) * 2 ^ (-((52 - n.log2 : ℕ) : Int)) = n := by
    rw [zpow_neg, zpow_natCast, Nat.cast_mul, Nat.cast_pow, Nat.cast_ofNat]
    exact mul_inv_cancel_right₀ (by positivity) _
  have hleast : -1022 ≤ ((n * 2 ^ (52 - n.log2)).log2 : Int) + -((52 - n.log2 : ℕ) : Int) := by
    omega
  obtain ⟨value, hform, happroximates⟩ := exists_approximates_exact hlow hleast
    (hvalue ▸ natCast_lt_overflow hbound)
  rw [hvalue] at happroximates
  rw [← hround, ← toFloat_toUInt64 hpos hbound] at hform
  refine ⟨value, hform, happroximates, ?_⟩
  rw [happroximates.eq_of_names (hmagnitude ▸ form.names_magnitude) hnormal]
  exact hmagnitude

theorem size_exactPowers : Float.exactlyRepresentablePowersOfTen.size = 23 := rfl

theorem forms_exactPowers : ∀ index : Fin Float.exactlyRepresentablePowersOfTen.size,
    (ofFloat? Float.exactlyRepresentablePowersOfTen[index]).any (fun value =>
      value.negative = false ∧ twoTo 52 ≤ value.significand ∧
        value.numerator = tenTo index * value.denominator ∧ value.exponent ≤ 21) = true := by
  decide +kernel

/-- The powers of ten that have a double of their own. -/
theorem exists_exactPower {exponent : Nat}
    (h : exponent < Float.exactlyRepresentablePowersOfTen.size) :
    ∃ value, ofFloat? Float.exactlyRepresentablePowersOfTen[exponent] = some value ∧
      value.Approximates (10 ^ exponent) ∧ value.magnitude = 10 ^ exponent ∧
        value.exponent ≤ 21 := by
  obtain ⟨value, hvalue, hform⟩ := (Option.any_eq_true _ _).mp (forms_exactPowers ⟨exponent, h⟩)
  obtain ⟨hnegative, hleading, hnumerator, hsmall⟩ := decide_eq_true_iff.mp hform
  have hdenominator : (value.denominator : ℚ) ≠ 0 := by exact_mod_cast value.denominator_pos.ne'
  have hmagnitude : value.magnitude = 10 ^ exponent := by
    rw [← numerator_div_denominator, hnumerator, tenTo_eq_pow, Nat.cast_mul,
      mul_div_cancel_right₀ _ hdenominator, Nat.cast_pow, Nat.cast_ofNat]
  exact ⟨value, hvalue, approximates_of_exact hvalue hnegative hleading hmagnitude, hmagnitude,
    hsmall⟩

/-- With few digits and a small power both operands are exact. -/
theorem exists_ofScientific_small {mantissa exponent : Nat} (hpos : 0 < mantissa)
    (hmantissa : mantissa < twoTo 53) (hexponent : exponent ≤ 22)
    (hlt : (mantissa : ℚ) * 10 ^ exponent < overflow) :
    ∃ value, ofFloat? (Float.ofScientific mantissa false exponent) = some value ∧
      value.Approximates (mantissa * 10 ^ exponent) := by
  have hsize : exponent < Float.exactlyRepresentablePowersOfTen.size := by
    rw [size_exactPowers]
    omega
  have hscientific : Float.ofScientific mantissa false exponent =
      mantissa.toUInt64.toFloat * Float.exactlyRepresentablePowersOfTen[exponent] := by
    have hfast : mantissa < 2 ^ 53 ∧ exponent ≤ 22 := ⟨hmantissa, hexponent⟩
    rw [Float.ofScientific, dif_pos hfast]
    rfl
  obtain ⟨first, hfirst, hnumber, hmagnitude⟩ := exists_toFloat hpos hmantissa
  obtain ⟨second, hsecond, hten, hmagnitude', _⟩ := exists_exactPower hsize
  have hproduct := hnumber.mul hfirst hsecond hten (by exact_mod_cast hpos)
    (one_le_pow₀ (by norm_num)) (by rwa [hmagnitude, hmagnitude'])
  rwa [hmagnitude, hmagnitude', ← hscientific] at hproduct

/-- Otherwise the exact product is rounded. -/
theorem exists_ofScientific_large {mantissa exponent : Nat} (hpos : 0 < mantissa)
    (hlarge : ¬ (mantissa < twoTo 53 ∧ exponent ≤ 22)) (hexponent : exponent ≤ 2048)
    (hlt : (mantissa : ℚ) * 10 ^ exponent < overflow) :
    ∃ value, ofFloat? (Float.ofScientific mantissa false exponent) = some value ∧
      value.Approximates (mantissa * 10 ^ exponent) := by
  have hscientific : Float.ofScientific mantissa false exponent =
      Float.ofModel (Float.Model.ofScientific mantissa exponent) := by
    have hslow : ¬ (mantissa < 2 ^ 53 ∧ exponent ≤ 22) := hlarge
    rw [Float.ofScientific, dif_neg hslow]
    rfl
  have hmodel : UnpackedFloat.ofScientific Format.binary64 mantissa exponent =
      roundWithAccuracy Format.binary64 .positive (mantissa * 2 ^ 53 * 10 ^ exponent) (-53)
        .exact := by
    have htoo_large : ¬ (exponent : Int) > 2 ^ Format.binary64.exponentBits := by
      change ¬ (exponent : Int) > 2048
      omega
    have htoo_small : ¬ (exponent : Int) < -((2 ^ Format.binary64.exponentBits : Int) +
        mantissa.log2) := by
      change ¬ (exponent : Int) < -(2048 + (mantissa.log2 : Int))
      omega
    rw [UnpackedFloat.ofScientific, dif_neg hpos.ne', if_neg htoo_large, if_neg htoo_small,
      if_pos (Int.natCast_nonneg exponent), UnpackedFloat.mul, Nat.shiftLeft_eq]
    rfl
  have hlow : twoTo 52 ≤ mantissa * 2 ^ 53 * 10 ^ exponent := by
    have hten : 0 < 10 ^ exponent := Nat.pow_pos (by decide)
    have hle : mantissa * 2 ^ 53 ≤ mantissa * 2 ^ 53 * 10 ^ exponent :=
      Nat.le_mul_of_pos_right _ hten
    rw [twoTo_52]
    omega
  have hvalue : ((mantissa * 2 ^ 53 * 10 ^ exponent : ℕ) : ℚ) * 2 ^ (-53 : Int) =
      mantissa * 10 ^ exponent := by
    have hunit : (2 : ℚ) ^ 53 * 2 ^ (-53 : Int) = 1 := by norm_num
    rw [Nat.cast_mul, Nat.cast_mul, Nat.cast_pow, Nat.cast_pow, Nat.cast_ofNat, Nat.cast_ofNat,
      mul_right_comm, mul_assoc (mantissa : ℚ), hunit, mul_one]
  have hrounded := exists_approximates_exact hlow (by omega) (hvalue ▸ hlt)
  rwa [hvalue, ← hmodel, ← Float.Model.ofScientific, ← hscientific] at hrounded

theorem exists_ofScientific {mantissa exponent : Nat} (hpos : 0 < mantissa)
    (hexponent : exponent ≤ 2048) (hlt : (mantissa : ℚ) * 10 ^ exponent < overflow) :
    ∃ value, ofFloat? (Float.ofScientific mantissa false exponent) = some value ∧
      value.Approximates (mantissa * 10 ^ exponent) := by
  by_cases hsmall : mantissa < twoTo 53 ∧ exponent ≤ 22
  · exact exists_ofScientific_small hpos hsmall.1 hsmall.2 hlt
  · exact exists_ofScientific_large hpos hsmall hexponent hlt

theorem exists_ofNat {n : Nat} (hpos : 0 < n) (hlt : n < 18446744073709551616) :
    ∃ value, ofFloat? (Float.ofNat n) = some value ∧ value.Approximates n := by
  have hone : (n : ℚ) * 10 ^ 0 = n := by rw [pow_zero, mul_one]
  have hscientific := @exists_ofScientific n 0 hpos (by decide)
    (hone.symm ▸ natCast_lt_overflow hlt)
  rwa [hone] at hscientific

/-- The number lies in the interval of the form, on its side of zero. -/
structure Binary.Rounds (value : Binary) (n : Int) : Prop where
  normal : value.Normal
  negative : value.negative = decide (n < 0)
  names : value.Names n.natAbs

/-- A whole number of 64 bits is rounded to its double. -/
theorem exists_ofInt {n : Int} (h : n.natAbs < 18446744073709551616) :
    ∃ value, ofFloat? (Float.ofInt n) = some value ∧ value.Rounds n := by
  cases n with
  | ofNat n =>
      rcases Nat.eq_zero_or_pos n with rfl | hpos
      · have hform : ofFloat? (Float.ofInt 0) = some ⟨false, 0, -1074⟩ := by decide +kernel
        refine ⟨_, hform, normal_of_ofFloat? hform, rfl, ?_⟩
        have hzero : ((Int.ofNat 0).natAbs : ℚ) = 0 := Nat.cast_zero
        rw [hzero]
        exact names_zero rfl
      · obtain ⟨value, hvalue, happroximates⟩ := exists_ofNat hpos h
        have hnegative : decide (Int.ofNat n < 0) = false :=
          decide_eq_false (not_lt.mpr (Int.natCast_nonneg n))
        exact ⟨value, hvalue, happroximates.normal,
          happroximates.negative.trans hnegative.symm, happroximates.names⟩
  | negSucc n =>
      obtain ⟨value, hvalue, happroximates⟩ := exists_ofNat (Nat.succ_pos n) h
      have hnegative : decide (Int.negSucc n < 0) = true :=
        decide_eq_true (Int.negSucc_lt_zero n)
      have hnormal := happroximates.normal
      have hnames := happroximates.names
      refine ⟨_, ofFloat?_neg hvalue happroximates.leading,
        ⟨hnormal.significand_lt, hnormal.exponent_ge, hnormal.leading⟩, ?_, ?_⟩
      · rw [happroximates.negative, hnegative]
        rfl
      · exact ⟨hnames.lower_le, hnames.le_upper, hnames.ne_lower, hnames.ne_upper⟩

end MetricLayer.Decimal
