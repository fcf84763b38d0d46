import MetricLayer.Proofs.Decimal.Quotients

/-!
# Products and quotients of doubles

The product and the quotient of two doubles are the doubles nearest to the exact ones, unless these
are out of range. Neither is a NaN if the operands are none and the divisor is finite.
-/

namespace MetricLayer.Decimal

open Float.Model Float.Model.UnpackedFloat

namespace Binary

/-- The numbers from here on are rounded to an infinity. -/
def overflow : ℚ := 2 ^ 1024 - 2 ^ 970

theorem tenTo_lt_overflow : (10 : ℚ) ^ 308 < overflow := by
  have hnat : 10 ^ 308 + 2 ^ 970 < 2 ^ 1024 := by decide +kernel
  have hcast : ((10 ^ 308 + 2 ^ 970 : ℕ) : ℚ) < (2 ^ 1024 : ℕ) := Nat.cast_lt.mpr hnat
  rw [Nat.cast_add, Nat.cast_pow, Nat.cast_pow, Nat.cast_pow, Nat.cast_ofNat, Nat.cast_ofNat]
    at hcast
  exact lt_sub_iff_add_lt.mpr hcast

theorem exponent_le_of_ofFloat? {x : Float} {value : Binary} (h : ofFloat? x = some value) :
    value.exponent ≤ 971 := by
  have hbiased : x.toBits.toNat / twoTo 52 % twoTo 11 < 2048 := Nat.mod_lt _ (twoTo_pos 11)
  unfold ofFloat? at h
  dsimp only at h
  split at h
  · cases h
  · split at h
    · obtain rfl := Option.some.inj h
      dsimp only
      omega
    · obtain rfl := Option.some.inj h
      dsimp only
      omega

section Range

variable {numerator denominator : Nat} {exponent : Int}

theorem exponent_nearestQuotient_le (hdenominator : 0 < denominator)
    (h : twoTo 52 ≤ numerator / denominator)
    (hexponent : -1022 ≤ (numerator / denominator).log2 + exponent)
    (hlt : (numerator : ℚ) / denominator * 2 ^ exponent < overflow) (negative : Bool) :
    (nearestQuotient negative numerator denominator exponent).exponent ≤ 971 := by
  have hnames := names_nearestQuotient hdenominator h hexponent negative
  have hleading := leading_nearestQuotient hdenominator h negative exponent
  generalize nearestQuotient negative numerator denominator exponent = form at *
  -- With a larger exponent the whole interval lies beyond the end of the range.
  by_contra hlarge
  have hends : 18014398509481983 ≤ form.lowerEnd := by
    rw [twoTo_52] at hleading
    rw [lowerEnd_eq]
    split <;> omega
  have hpow : (2 : ℚ) ^ (970 : ℤ) ≤ 2 ^ (form.exponent - 2) :=
    zpow_le_zpow_right₀ (by norm_num) (by omega)
  have hoverflow : overflow = 18014398509481983 * 2 ^ (970 : ℤ) := by
    have hunit : (2 : ℚ) ^ 1024 = 2 ^ 54 * 2 ^ 970 := by rw [← pow_add]
    have hpower : (2 : ℚ) ^ (970 : ℤ) = 2 ^ 970 := zpow_natCast 2 970
    rw [overflow, hunit, hpower]
    generalize (2 : ℚ) ^ 970 = unit
    ring
  have hle : overflow ≤ form.lowerEnd * 2 ^ (form.exponent - 2) := by
    rw [hoverflow]
    exact mul_le_mul (by exact_mod_cast hends) hpow (by positivity) (by positivity)
  exact absurd hlt (not_lt.mpr (hle.trans hnames.lower_le))

end Range

/-- A positive number lies in the interval of a normal form with all of its digits. -/
structure Approximates (value : Binary) (number : ℚ) : Prop where
  normal : value.Normal
  negative : value.negative = false
  leading : twoTo 52 ≤ value.significand
  names : value.Names number

namespace Approximates

variable {value : Binary} {number : ℚ}

theorem significand_ne_zero (h : value.Approximates number) : value.significand ≠ 0 := by
  have hleading := h.leading
  rw [twoTo_52] at hleading
  omega

theorem unpacked_eq (h : value.Approximates number) :
    value.unpacked = .finite .positive value.significand value.exponent
      (Nat.pos_of_ne_zero h.significand_ne_zero) := by
  rw [unpacked, dif_neg h.significand_ne_zero, h.negative]
  rfl

theorem log2_significand (h : value.Approximates number) : value.significand.log2 = 52 := by
  have hlt := h.normal.significand_lt
  have hleading := h.leading
  rw [twoTo_53] at hlt
  rw [twoTo_52] at hleading
  exact (Nat.log2_eq_iff h.significand_ne_zero).mpr ⟨hleading, hlt⟩

/-- The relative error is at most half a unit in the last place. -/
theorem magnitude_le (h : value.Approximates number) :
    value.magnitude * 9007199254740991 ≤ number * 9007199254740992 := by
  have hunit : (0 : ℚ) < 2 ^ (value.exponent - 2) := by positivity
  have hleading := h.leading
  have hends : 4 * value.significand * 9007199254740991 ≤ value.lowerEnd * 9007199254740992 := by
    rw [twoTo_52] at hleading
    rw [lowerEnd_eq]
    split <;> omega
  have hends_cast : ((4 * value.significand : ℕ) : ℚ) * 9007199254740991 ≤
      value.lowerEnd * 9007199254740992 := by
    exact_mod_cast hends
  have hlower := h.names.lower_le
  rw [magnitude_eq]
  nlinarith

/-- A number that is not below one is not named by a small form. -/
theorem exponent_ge (h : value.Approximates number) (hone : 1 ≤ number) : -52 ≤ value.exponent := by
  have hlt := h.normal.significand_lt
  rw [twoTo_53] at hlt
  by_contra hsmall
  have hpow : (2 : ℚ) ^ (value.exponent - 2) ≤ 2 ^ (-55 : ℤ) :=
    zpow_le_zpow_right₀ (by norm_num) (by omega)
  have hupper := h.names.le_upper
  have hend : (value.upperEnd : ℚ) ≤ 36028797018963966 := by
    rw [upperEnd]
    exact_mod_cast (by omega : 4 * value.significand + 2 ≤ 36028797018963966)
  have hle : (value.upperEnd : ℚ) * 2 ^ (value.exponent - 2) ≤
      36028797018963966 * 2 ^ (-55 : ℤ) :=
    mul_le_mul hend hpow (by positivity) (by norm_num)
  have hsmall_bound : (36028797018963966 : ℚ) * 2 ^ (-55 : ℤ) < 1 := by norm_num
  linarith

/-- A form of the number is this one, up to its sign. -/
theorem eq_of_names (h : value.Approximates number) {other : Binary} (hother : other.Names number)
    (hnormal : other.Normal) : value = { other with negative := false } := by
  obtain ⟨hsignificand, hexponent⟩ := h.names.unique hother h.normal hnormal
  have hnegative := h.negative
  cases value
  cases other
  simp_all

end Approximates

theorem approximates_of_exact {x : Float} {value : Binary} {number : ℚ}
    (h : ofFloat? x = some value) (hnegative : value.negative = false)
    (hleading : twoTo 52 ≤ value.significand) (hmagnitude : value.magnitude = number) :
    value.Approximates number where
  normal := normal_of_ofFloat? h
  negative := hnegative
  leading := hleading
  names := hmagnitude ▸ value.names_magnitude

theorem approximates_nearestQuotient {numerator denominator : Nat} {exponent : Int}
    (hdenominator : 0 < denominator) (h : twoTo 52 ≤ numerator / denominator)
    (hexponent : -1022 ≤ (numerator / denominator).log2 + exponent) :
    (nearestQuotient false numerator denominator exponent).Approximates
      (numerator / denominator * 2 ^ exponent) where
  normal := normal_nearestQuotient hdenominator h hexponent false
  negative := negative_nearestQuotient false
  leading := leading_nearestQuotient hdenominator h false exponent
  names := names_nearestQuotient hdenominator h hexponent false

/-- Rounding a quotient gives its nearest form, unless it is out of range. -/
theorem exists_approximates {numerator denominator : Nat} {exponent : Int}
    (hdenominator : 0 < denominator) (h : twoTo 52 ≤ numerator / denominator)
    (hexponent : -1022 ≤ (numerator / denominator).log2 + exponent)
    (hlt : (numerator : ℚ) / denominator * 2 ^ exponent < overflow) :
    ∃ value, ofFloat? (Float.ofModel (Float.Model.pack (roundWithAccuracy Format.binary64 .positive
        (numerator / denominator) exponent
        (accuracyOfFraction (numerator % denominator) denominator)))) = some value ∧
      value.Approximates (numerator / denominator * 2 ^ exponent) := by
  have happroximates := approximates_nearestQuotient hdenominator h hexponent
  have hround := roundWithAccuracy_quotient hdenominator h hexponent false
  have hsmall := exponent_nearestQuotient_le hdenominator h hexponent hlt false
  refine ⟨_, ?_, happroximates⟩
  change ofFloat? (Float.ofModel (Float.Model.pack (roundWithAccuracy Format.binary64 (sign false)
    _ _ _))) = _
  rw [hround]
  exact ofFloat?_pack happroximates.normal happroximates.leading hsmall

theorem exists_approximates_exact {mantissa : Nat} {exponent : Int} (h : twoTo 52 ≤ mantissa)
    (hexponent : -1022 ≤ mantissa.log2 + exponent)
    (hlt : (mantissa : ℚ) * 2 ^ exponent < overflow) :
    ∃ value, ofFloat? (Float.ofModel (Float.Model.pack (roundWithAccuracy Format.binary64 .positive
        mantissa exponent .exact))) = some value ∧
      value.Approximates (mantissa * 2 ^ exponent) := by
  have hrounded := @exists_approximates mantissa 1 exponent (by decide) (by rwa [Nat.div_one])
    (by rwa [Nat.div_one]) (by rwa [Nat.cast_one, div_one])
  have hexact : accuracyOfFraction (mantissa % 1) 1 = .exact := by
    rw [Nat.mod_one]
    rfl
  rwa [hexact, Nat.div_one, Nat.cast_one, div_one] at hrounded

section Operations

variable {x y : Float} {first second : Binary} {p q : ℚ}

/-- The product of doubles that stand for numbers from one on. -/
theorem Approximates.mul (hx : ofFloat? x = some first) (hy : ofFloat? y = some second)
    (hfirst : first.Approximates p) (hsecond : second.Approximates q) (hp : 1 ≤ p) (hq : 1 ≤ q)
    (hlt : first.magnitude * second.magnitude < overflow) :
    ∃ value, ofFloat? (x * y) = some value ∧
      value.Approximates (first.magnitude * second.magnitude) := by
  have hproduct : x * y = Float.ofModel (Float.Model.pack (roundWithAccuracy Format.binary64
      .positive (first.significand * second.significand) (first.exponent + second.exponent)
      .exact)) := by
    change Float.ofModel (Float.Model.pack (UnpackedFloat.mul Format.binary64 x.toModel.unpack
      y.toModel.unpack)) = _
    rw [unpack_of_ofFloat? hx, unpack_of_ofFloat? hy, hfirst.unpacked_eq, hsecond.unpacked_eq]
    rfl
  have hleading : twoTo 52 * twoTo 52 ≤ first.significand * second.significand :=
    Nat.mul_le_mul hfirst.leading hsecond.leading
  have hlog : 104 ≤ (first.significand * second.significand).log2 := by
    refine (Nat.le_log2 ?_).mpr hleading
    exact Nat.mul_ne_zero hfirst.significand_ne_zero hsecond.significand_ne_zero
  have hexponent := hfirst.exponent_ge hp
  have hexponent' := hsecond.exponent_ge hq
  have hmagnitude : ((first.significand * second.significand : ℕ) : ℚ) *
      2 ^ (first.exponent + second.exponent) = first.magnitude * second.magnitude := by
    rw [magnitude, magnitude, zpow_add₀ (by norm_num), Nat.cast_mul]
    ring
  have hlow : twoTo 52 ≤ first.significand * second.significand :=
    (Nat.le_mul_of_pos_right _ (twoTo_pos 52)).trans hleading
  have hleast : -1022 ≤ ((first.significand * second.significand).log2 : Int) +
      (first.exponent + second.exponent) := by
    omega
  have hrounded := exists_approximates_exact hlow hleast (by rwa [hmagnitude])
  rw [hmagnitude] at hrounded
  rwa [hproduct]

/-- With all digits in both operands the division takes 53 bits more. -/
theorem divCore_eq (hfirst : first.Approximates p) (hsecond : second.Approximates q)
    (hexponent : -1021 ≤ first.exponent - second.exponent) :
    divCore Format.binary64 first.significand first.exponent second.significand second.exponent =
      (first.significand * 2 ^ 53 / second.significand, first.exponent - second.exponent - 53,
        accuracyOfFraction (first.significand * 2 ^ 53 % second.significand)
          second.significand) := by
  have htarget : Format.binary64.targetExponent
      (totalExponent first.significand first.exponent -
        totalExponent second.significand second.exponent) =
      first.exponent - second.exponent - 53 := by
    have hbits : ((Format.binary64.mantissaBits : Nat) : Int) = 53 := rfl
    have hleast : Format.binary64.minExponent = -1074 := rfl
    rw [Format.targetExponent, totalExponent, totalExponent, hfirst.log2_significand,
      hsecond.log2_significand, hbits, hleast]
    omega
  have hleast : min (first.exponent - second.exponent) (first.exponent - second.exponent - 53) =
      first.exponent - second.exponent - 53 := by
    omega
  have hshift : (first.exponent - second.exponent -
      (first.exponent - second.exponent - 53)).toNat = 53 := by
    omega
  rw [divCore, htarget, hleast, hshift, Nat.shiftLeft_eq]

/-- The quotient of doubles with all digits. -/
theorem Approximates.div (hx : ofFloat? x = some first) (hy : ofFloat? y = some second)
    (hfirst : first.Approximates p) (hsecond : second.Approximates q)
    (hexponent : -1021 ≤ first.exponent - second.exponent)
    (hlt : first.magnitude / second.magnitude < overflow) :
    ∃ value, ofFloat? (x / y) = some value ∧
      value.Approximates (first.magnitude / second.magnitude) := by
  have hquotient : x / y = Float.ofModel (Float.Model.pack (roundWithAccuracy Format.binary64
      .positive (first.significand * 2 ^ 53 / second.significand)
      (first.exponent - second.exponent - 53)
      (accuracyOfFraction (first.significand * 2 ^ 53 % second.significand)
        second.significand))) := by
    change Float.ofModel (Float.Model.pack (UnpackedFloat.div Format.binary64 x.toModel.unpack
      y.toModel.unpack)) = _
    rw [unpack_of_ofFloat? hx, unpack_of_ofFloat? hy, hfirst.unpacked_eq, hsecond.unpacked_eq,
      UnpackedFloat.div, divCore_eq hfirst hsecond hexponent]
    rfl
  have hpos : 0 < second.significand := Nat.pos_of_ne_zero hsecond.significand_ne_zero
  have hlow : twoTo 52 ≤ first.significand * 2 ^ 53 / second.significand := by
    have hleading := hfirst.leading
    have hsmall := hsecond.normal.significand_lt
    rw [twoTo_52] at *
    rw [twoTo_53] at hsmall
    rw [Nat.le_div_iff_mul_le hpos]
    omega
  have hlog : 52 ≤ (first.significand * 2 ^ 53 / second.significand).log2 := by
    refine (Nat.le_log2 ?_).mpr hlow
    rw [twoTo_52] at hlow
    omega
  have hmagnitude : ((first.significand * 2 ^ 53 : ℕ) : ℚ) / second.significand *
      2 ^ (first.exponent - second.exponent - 53) = first.magnitude / second.magnitude := by
    have hsplit : (2 : ℚ) ^ (first.exponent - second.exponent - 53) * 2 ^ 53 =
        2 ^ first.exponent / 2 ^ second.exponent := by
      rw [← zpow_sub₀ (by norm_num), ← zpow_natCast, ← zpow_add₀ (by norm_num)]
      congr 1
      omega
    rw [magnitude, magnitude, Nat.cast_mul, Nat.cast_pow, Nat.cast_ofNat, mul_div_mul_comm,
      ← hsplit]
    ring
  have hrounded := @exists_approximates (first.significand * 2 ^ 53) second.significand
    (first.exponent - second.exponent - 53) hpos hlow (by omega) (by rwa [hmagnitude])
  rw [hmagnitude] at hrounded
  rwa [hquotient]

end Operations

theorem unpacked_neg {value : Binary} :
    value.unpacked.neg = { value with negative := !value.negative }.unpacked := by
  unfold Binary.unpacked
  dsimp only
  by_cases hzero : value.significand = 0
  · rw [dif_pos hzero, dif_pos hzero]
    cases value.negative <;> rfl
  · rw [dif_neg hzero, dif_neg hzero]
    cases value.negative <;> rfl

/-- The sign of a double with all digits. -/
theorem ofFloat?_neg {x : Float} {value : Binary} (h : ofFloat? x = some value)
    (hleading : twoTo 52 ≤ value.significand) :
    ofFloat? (-x) = some { value with negative := !value.negative } := by
  have hnormal := normal_of_ofFloat? h
  have hexponent := exponent_le_of_ofFloat? h
  have hneg : -x = Float.ofModel (Float.Model.pack
      { value with negative := !value.negative }.unpacked) := by
    change Float.ofModel (Float.Model.pack x.toModel.unpack.neg) = _
    rw [unpack_of_ofFloat? h, unpacked_neg]
  rw [hneg]
  exact ofFloat?_pack ⟨hnormal.significand_lt, hnormal.exponent_ge, hnormal.leading⟩ hleading
    hexponent

section Numbers

variable {x y : Float} {value : Binary}

theorem isNaN_eq_false_iff (x : Float) : x.isNaN = false ↔ x.toModel.unpack ≠ .notANumber := by
  rw [← Bool.not_eq_true]
  exact not_congr UnpackedFloat.isNaN_iff

theorem isNaN_of_ofFloat? (h : ofFloat? x = some value) : x.isNaN = false := by
  rw [isNaN_eq_false_iff, unpack_of_ofFloat? h, unpacked]
  intro hnan
  split at hnan <;> cases hnan

/-- Only the greatest exponent is left to a NaN. -/
theorem unpack_packComponents_ne {sign : Sign} {exponent : BitVec Format.binary64.exponentBits}
    {mantissa : BitVec Format.binary64.mantissaBitsWithoutImplicit}
    (h : exponent ≠ -1#_ ∨ mantissa = 0#_) :
    UnpackedFloat.unpack Format.binary64 (packComponents Format.binary64 sign exponent mantissa) ≠
      .notANumber := by
  have hexponent := @unpackExponent_packComponents Format.binary64 sign exponent mantissa
  have hmantissa := @unpackMantissa_packComponents Format.binary64 sign exponent mantissa
  generalize packComponents Format.binary64 sign exponent mantissa = bits at *
  rw [← hexponent, ← hmantissa] at h
  unfold UnpackedFloat.unpack
  dsimp only
  split
  · rename_i hall
    rw [if_pos (h.resolve_left (not_not_intro hall))]
    nofun
  · split
    · split <;> nofun
    · nofun

theorem unpack_pack_ne {form : UnpackedFloat} (h : form ≠ .notANumber) :
    UnpackedFloat.unpack Format.binary64 (UnpackedFloat.pack Format.binary64 form) ≠
      .notANumber := by
  cases form with
  | notANumber => exact absurd rfl h
  | infinity sign => exact unpack_packComponents_ne (.inr rfl)
  | zero sign => exact unpack_packComponents_ne (.inr rfl)
  | finite sign mantissa exponent hpos =>
      unfold UnpackedFloat.pack
      dsimp only
      generalize (exponent + ((Format.binary64.exponentBias : Nat) : Int) +
        ((Format.binary64.mantissaBitsWithoutImplicit : Nat) : Int)).toNat = biased
      split
      · exact unpack_packComponents_ne (.inr rfl)
      · rename_i hroom
        have hbiased : biased + 1 < 2048 := not_le.mp hroom
        split
        · refine unpack_packComponents_ne (.inl fun hall => ?_)
          have hnat : biased % 2048 = 2047 := congrArg BitVec.toNat hall
          omega
        · exact unpack_packComponents_ne (.inl nofun)

theorem roundWithAccuracy_ne (sign : Sign) (mantissa : Nat) (exponent : Int)
    (accuracy : Accuracy) :
    roundWithAccuracy Format.binary64 sign mantissa exponent accuracy ≠ .notANumber := by
  unfold roundWithAccuracy
  dsimp only
  split <;> nofun

/-- A number divided by a finite number that is not zero. -/
theorem isNaN_div (hx : x.isNaN = false) (hy : ofFloat? y = some value)
    (hne : value.significand ≠ 0) : (x / y).isNaN = false := by
  rw [isNaN_eq_false_iff] at *
  refine unpack_pack_ne ?_
  rw [unpack_of_ofFloat? hy, unpacked, dif_neg hne]
  intro hnan
  cases hform : x.toModel.unpack with
  | notANumber => exact hx hform
  | infinity sign =>
      rw [hform] at hnan
      cases hnan
  | zero sign =>
      rw [hform] at hnan
      cases hnan
  | finite sign mantissa exponent hpos =>
      rw [hform] at hnan
      exact roundWithAccuracy_ne _ _ _ _ hnan

theorem isNaN_neg (hx : x.isNaN = false) : (-x).isNaN = false := by
  rw [isNaN_eq_false_iff] at *
  refine unpack_pack_ne ?_
  cases hform : x.toModel.unpack with
  | notANumber => exact absurd hform hx
  | infinity sign => nofun
  | zero sign => nofun
  | finite sign mantissa exponent hpos => nofun

end Numbers

end Binary

end MetricLayer.Decimal
