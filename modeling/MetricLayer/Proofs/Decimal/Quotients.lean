import MetricLayer.Proofs.Decimal.Unpacked

/-!
# Rounding quotients to a nearest double

Rounding drops the last bits of a mantissa and remembers about what is dropped whether it is above
one half, below it or neither. What a division leaves is remembered in the same way. So a quotient
is rounded like a fraction whose denominator takes up the dropped bits, and it lies in the interval
of the double that it is rounded to.
-/

namespace MetricLayer.Decimal

open Float.Model Float.Model.UnpackedFloat

/-- A whole number of units: the first bit of what is left, and whether another one is set. -/
def dropBelow (number unit : Nat) : ExtendedMantissa where
  mantissa := number / unit
  roundBit := decide (unit ≤ 2 * (number % unit))
  stickyBit := decide (2 * (number % unit) % unit ≠ 0)

section Dropping

variable {unit : Nat}

theorem dropBelow_one (number : Nat) : dropBelow number 1 = ⟨number, false, false⟩ := by
  simp [dropBelow, Nat.mod_one]

theorem shiftRightOne_dropBelow (number : Nat) (hunit : 0 < unit) :
    (dropBelow number unit).shiftRightOne = dropBelow number (unit * 2) := by
  have hlt := Nat.mod_lt number hunit
  have hmod : number % (unit * 2) = number % unit + unit * (number / unit % 2) := Nat.mod_mul
  unfold ExtendedMantissa.shiftRightOne dropBelow
  rw [hmod, ← Nat.div_div_eq_div_mul]
  generalize number % unit = rest at *
  have hsticky :
      (decide (unit ≤ 2 * rest) || decide (2 * rest % unit ≠ 0)) = decide (rest ≠ 0) := by
    rw [Bool.eq_iff_iff, Bool.or_eq_true, decide_eq_true_iff, decide_eq_true_iff,
      decide_eq_true_iff]
    by_cases hsmall : 2 * rest < unit
    · rw [Nat.mod_eq_of_lt hsmall]
      omega
    · omega
  rw [hsticky]
  rcases Nat.mod_two_eq_zero_or_one (number / unit) with hbit | hbit
  · have hkeep : 2 * rest % (unit * 2) = 2 * rest := Nat.mod_eq_of_lt (by omega)
    rw [hbit, Nat.mul_zero, Nat.add_zero, hkeep]
    congr 1
    · simp
      omega
    · simp
  · have hkeep : 2 * (rest + unit) % (unit * 2) = 2 * rest := by
      rw [Nat.mod_eq_sub_mod (by omega), Nat.mod_eq_of_lt (by omega)]
      omega
    rw [hbit, Nat.mul_one, hkeep]
    congr 1
    · simp
      omega
    · simp

theorem repeat_shiftRightOne_dropBelow (number : Nat) (hunit : 0 < unit) (count : Nat) :
    Nat.repeat ExtendedMantissa.shiftRightOne count (dropBelow number unit) =
      dropBelow number (unit * 2 ^ count) := by
  induction count with
  | zero => rw [pow_zero, mul_one, Nat.repeat]
  | succ count ih =>
      have hpos : 0 < unit * 2 ^ count := Nat.mul_pos hunit (Nat.pow_pos (by decide))
      rw [Nat.repeat, ih, shiftRightOne_dropBelow number hpos, pow_succ, mul_assoc]

theorem roundedMantissa_dropBelow (number : Nat) (hunit : 0 < unit) :
    (dropBelow number unit).roundedMantissa = roundDiv .toEven number unit := by
  have hlt := Nat.mod_lt number hunit
  unfold ExtendedMantissa.roundedMantissa dropBelow roundDiv
  dsimp only
  generalize number % unit = rest at *
  generalize number / unit = kept at *
  by_cases hsmall : 2 * rest < unit
  · rw [if_pos hsmall, Nat.mod_eq_of_lt hsmall]
    have hround : decide (unit ≤ 2 * rest) = false := decide_eq_false (by omega)
    rw [hround]
    by_cases hexact : 2 * rest = 0
    · have hsticky : decide (2 * rest ≠ 0) = false := decide_eq_false (by omega)
      rw [hsticky]
      rfl
    · have hsticky : decide (2 * rest ≠ 0) = true := decide_eq_true hexact
      rw [hsticky]
      rfl
  · have hround : decide (unit ≤ 2 * rest) = true := decide_eq_true (by omega)
    have hmod : 2 * rest % unit = 2 * rest - unit := by
      rw [Nat.mod_eq_sub_mod (by omega), Nat.mod_eq_of_lt (by omega)]
    rw [if_neg hsmall, hround, hmod]
    by_cases htie : 2 * rest = unit
    · have hsticky : decide (2 * rest - unit ≠ 0) = false := decide_eq_false (by omega)
      rw [if_pos htie, hsticky]
      change kept + kept % 2 = if (kept % 2 == 1) = true then kept + 1 else kept
      split
      · rename_i hodd
        rw [beq_iff_eq] at hodd
        omega
      · rename_i heven
        rw [beq_iff_eq] at heven
        omega
    · have hsticky : decide (2 * rest - unit ≠ 0) = true := decide_eq_true (by omega)
      rw [if_neg htie, hsticky]
      rfl

/-- What a division leaves is what is dropped below its denominator. -/
theorem ofMantissaAndAccuracy_fraction (number : Nat) (hunit : 0 < unit) :
    ExtendedMantissa.ofMantissaAndAccuracy (number / unit)
      (accuracyOfFraction (number % unit) unit) = dropBelow number unit := by
  have hlt := Nat.mod_lt number hunit
  unfold dropBelow accuracyOfFraction
  generalize number % unit = rest at *
  by_cases hexact : rest = 0
  · subst hexact
    have hround : decide (unit ≤ 2 * 0) = false := decide_eq_false (by omega)
    rw [if_pos rfl, hround, Nat.mul_zero, Nat.zero_mod]
    rfl
  · rw [if_neg hexact]
    rcases Nat.lt_trichotomy (2 * rest) unit with hless | htie | hmore
    · have hround : decide (unit ≤ 2 * rest) = false := decide_eq_false (by omega)
      have hsticky : decide (2 * rest % unit ≠ 0) = true := by
        rw [Nat.mod_eq_of_lt hless]
        exact decide_eq_true (by omega)
      rw [hround, hsticky, compare_lt_iff_lt.mpr hless]
      rfl
    · have hround : decide (unit ≤ 2 * rest) = true := decide_eq_true (by omega)
      have hsticky : decide (2 * rest % unit ≠ 0) = false := by
        rw [htie, Nat.mod_self]
        rfl
      rw [hround, hsticky, compare_eq_iff_eq.mpr htie]
      rfl
    · have hround : decide (unit ≤ 2 * rest) = true := decide_eq_true (by omega)
      have hsticky : decide (2 * rest % unit ≠ 0) = true := by
        rw [Nat.mod_eq_sub_mod (by omega), Nat.mod_eq_of_lt (by omega)]
        exact decide_eq_true (by omega)
      rw [hround, hsticky, compare_gt_iff_gt.mpr hmore]
      rfl

end Dropping

namespace Binary

/-- The nearest form to `numerator / denominator * 2 ^ exponent`, of two the even one. It is for
quotients of 53 digits or more. -/
def nearestQuotient (negative : Bool) (numerator denominator : Nat) (exponent : Int) : Binary :=
  let dropped := (numerator / denominator).log2 - 52
  let kept := roundDiv .toEven numerator (denominator * 2 ^ dropped)
  if kept = twoTo 53 then ⟨negative, twoTo 52, exponent + dropped + 1⟩
  else ⟨negative, kept, exponent + dropped⟩

variable {numerator denominator : Nat} {exponent : Int}

/-- The bounds of the quotient and of what is kept of it. -/
theorem keptQuotient_bounds (hdenominator : 0 < denominator)
    (h : twoTo 52 ≤ numerator / denominator) :
    let unit := denominator * 2 ^ ((numerator / denominator).log2 - 52)
    twoTo 52 * unit ≤ numerator ∧ numerator < twoTo 53 * unit ∧
      twoTo 52 ≤ roundDiv .toEven numerator unit ∧
      roundDiv .toEven numerator unit ≤ twoTo 53 := by
  rw [twoTo_52] at *
  rw [twoTo_53]
  have hpos : numerator / denominator ≠ 0 := by omega
  have hlog : 52 ≤ (numerator / denominator).log2 := (Nat.le_log2 hpos).mpr h
  have hlow : 2 ^ (numerator / denominator).log2 ≤ numerator / denominator :=
    (Nat.le_log2 hpos).mp le_rfl
  have hhigh : numerator / denominator < 2 ^ ((numerator / denominator).log2 + 1) :=
    (Nat.log2_lt hpos).mp (Nat.lt_succ_self _)
  have hsplit : 2 ^ (numerator / denominator).log2 =
      4503599627370496 * 2 ^ ((numerator / denominator).log2 - 52) := by
    have hpow : (2 : ℕ) ^ 52 = 4503599627370496 := rfl
    rw [← hpow, ← pow_add]
    congr 1
    omega
  rw [pow_succ, hsplit, Nat.div_lt_iff_lt_mul hdenominator] at hhigh
  rw [hsplit, Nat.le_div_iff_mul_le hdenominator] at hlow
  have hunit : 0 < denominator * 2 ^ ((numerator / denominator).log2 - 52) :=
    Nat.mul_pos hdenominator (Nat.pow_pos (by decide))
  intro unit
  have hlow_unit : 4503599627370496 * unit ≤ numerator := by
    calc 4503599627370496 * unit
        = 4503599627370496 * 2 ^ ((numerator / denominator).log2 - 52) * denominator := by ring
      _ ≤ numerator := hlow
  have hhigh_unit : numerator < 9007199254740992 * unit := by
    calc numerator
        < 4503599627370496 * 2 ^ ((numerator / denominator).log2 - 52) * 2 * denominator := hhigh
      _ = 9007199254740992 * unit := by ring
  have hquotient_low : 4503599627370496 ≤ numerator / unit :=
    (Nat.le_div_iff_mul_le hunit).mpr hlow_unit
  have hquotient_high : numerator / unit < 9007199254740992 :=
    (Nat.div_lt_iff_lt_mul hunit).mpr hhigh_unit
  refine ⟨hlow_unit, hhigh_unit, ?_⟩
  rcases roundDiv_cases .toEven numerator unit with heq | heq <;> rw [heq] <;> omega

theorem targetExponent_eq (mantissa : Nat) (exponent : Int) :
    Format.binary64.targetExponent (totalExponent mantissa exponent) =
      max (mantissa.log2 + exponent - 52) (-1074) := by
  have hbits : ((Format.binary64.mantissaBits : Nat) : Int) = 53 := rfl
  have hleast : Format.binary64.minExponent = -1074 := rfl
  rw [Format.targetExponent, totalExponent, hbits, hleast]
  omega

theorem shiftToTargetExponent_fraction (hdenominator : 0 < denominator) (exponent : Int) :
    shiftToTargetExponent Format.binary64 (numerator / denominator) exponent
        (accuracyOfFraction (numerator % denominator) denominator) =
      let count := (max ((numerator / denominator).log2 + exponent - 52) (-1074) - exponent).toNat
      (dropBelow numerator (denominator * 2 ^ count), exponent + count) := by
  rw [shiftToTargetExponent, targetExponent_eq, shiftToExponent,
    ofMantissaAndAccuracy_fraction numerator hdenominator]
  exact congrArg₂ Prod.mk (repeat_shiftRightOne_dropBelow _ hdenominator _) rfl

theorem shiftToTargetExponent_exact (mantissa : Nat) (exponent : Int) :
    shiftToTargetExponent Format.binary64 mantissa exponent .exact =
      let count := (max (mantissa.log2 + exponent - 52) (-1074) - exponent).toNat
      (dropBelow mantissa (2 ^ count), exponent + count) := by
  have hfraction := @shiftToTargetExponent_fraction mantissa 1 (by decide) exponent
  have hexact : accuracyOfFraction (mantissa % 1) 1 = .exact := by
    rw [Nat.mod_one]
    rfl
  rw [hexact, Nat.div_one] at hfraction
  simp only [one_mul] at hfraction
  exact hfraction

theorem roundWithAccuracy_quotient (hdenominator : 0 < denominator)
    (h : twoTo 52 ≤ numerator / denominator)
    (hexponent : -1022 ≤ (numerator / denominator).log2 + exponent) (negative : Bool) :
    roundWithAccuracy Format.binary64 (sign negative) (numerator / denominator) exponent
        (accuracyOfFraction (numerator % denominator) denominator) =
      (nearestQuotient negative numerator denominator exponent).unpacked := by
  obtain ⟨_, _, hlow, hhigh⟩ := keptQuotient_bounds hdenominator h
  have hlog : 52 ≤ (numerator / denominator).log2 := by
    rw [twoTo_52] at h
    exact (Nat.le_log2 (by omega)).mpr h
  have hunit : 0 < denominator * 2 ^ ((numerator / denominator).log2 - 52) :=
    Nat.mul_pos hdenominator (Nat.pow_pos (by decide))
  have hcount : (max ((numerator / denominator).log2 + exponent - 52) (-1074) - exponent).toNat =
      (numerator / denominator).log2 - 52 := by
    omega
  unfold roundWithAccuracy
  rw [shiftToTargetExponent_fraction hdenominator]
  dsimp only
  rw [hcount, roundedMantissa_dropBelow numerator hunit, shiftToTargetExponent_exact,
    nearestQuotient]
  dsimp only
  rw [twoTo_52] at *
  rw [twoTo_53] at *
  generalize roundDiv .toEven numerator
    (denominator * 2 ^ ((numerator / denominator).log2 - 52)) = kept at *
  generalize (numerator / denominator).log2 - 52 = dropped at *
  -- Rounded up to 54 bits, the mantissa is shifted once more; the bit that it loses is zero.
  by_cases hfull : kept = 9007199254740992
  · have hlog_kept : kept.log2 = 53 := by
      rw [hfull]
      rfl
    have hagain : (max ((kept.log2 : Int) + (exponent + dropped) - 52) (-1074) -
        (exponent + dropped)).toNat = 1 := by
      rw [hlog_kept]
      omega
    have hhalf : (dropBelow kept (2 ^ 1)).mantissa = 4503599627370496 := by
      rw [dropBelow, hfull]
      rfl
    rw [hagain, if_pos hfull, unpacked]
    simp only [hhalf, Nat.cast_one]
  · have hlog_kept : kept.log2 = 52 := (Nat.log2_eq_iff (by omega)).mpr ⟨hlow, by omega⟩
    have hagain : (max ((kept.log2 : Int) + (exponent + dropped) - 52) (-1074) -
        (exponent + dropped)).toNat = 0 := by
      rw [hlog_kept]
      omega
    have hkeep : (dropBelow kept (2 ^ 0)).mantissa = kept := by rw [pow_zero, dropBelow_one]
    rw [hagain, if_neg hfull, unpacked]
    simp only [hkeep, Nat.cast_zero, add_zero]

theorem negative_nearestQuotient (negative : Bool) :
    (nearestQuotient negative numerator denominator exponent).negative = negative := by
  unfold nearestQuotient
  dsimp only
  split <;> rfl

theorem leading_nearestQuotient (hdenominator : 0 < denominator)
    (h : twoTo 52 ≤ numerator / denominator) (negative : Bool) (exponent : Int) :
    twoTo 52 ≤ (nearestQuotient negative numerator denominator exponent).significand := by
  obtain ⟨_, _, hlow, _⟩ := keptQuotient_bounds hdenominator h
  unfold nearestQuotient
  dsimp only
  split
  · exact le_rfl
  · exact hlow

theorem exponent_nearestQuotient (negative : Bool) (numerator denominator : Nat) (exponent : Int) :
    let form := nearestQuotient negative numerator denominator exponent
    exponent + ((numerator / denominator).log2 - 52 : ℕ) ≤ form.exponent ∧
      form.exponent ≤ exponent + ((numerator / denominator).log2 - 52 : ℕ) + 1 := by
  unfold nearestQuotient
  dsimp only
  split
  · dsimp only
    omega
  · dsimp only
    omega

theorem normal_nearestQuotient (hdenominator : 0 < denominator)
    (h : twoTo 52 ≤ numerator / denominator)
    (hexponent : -1022 ≤ (numerator / denominator).log2 + exponent) (negative : Bool) :
    (nearestQuotient negative numerator denominator exponent).Normal := by
  obtain ⟨_, _, _, hhigh⟩ := keptQuotient_bounds hdenominator h
  have hlow := (exponent_nearestQuotient negative numerator denominator exponent).1
  refine ⟨?_, by omega, .inl (leading_nearestQuotient hdenominator h negative exponent)⟩
  unfold nearestQuotient
  dsimp only
  split
  · rw [twoTo_52, twoTo_53]
    dsimp only
    omega
  · rename_i hfull
    exact lt_of_le_of_ne hhigh hfull

theorem names_quotient_iff {value : Binary} {shift : Nat} (hdenominator : 0 < denominator)
    (h : value.exponent = exponent + shift) :
    value.Names (numerator / denominator * 2 ^ exponent) ↔
      value.reaches (value.lowerEnd * (denominator * 2 ^ shift)) (4 * numerator) = true ∧
        value.reaches (4 * numerator) (value.upperEnd * (denominator * 2 ^ shift)) = true := by
  have hpos : (0 : ℚ) < denominator := Nat.cast_pos.mpr hdenominator
  have hscale : (0 : ℚ) < 4 * 2 ^ (-exponent) * denominator := by positivity
  have hcancel : (2 : ℚ) ^ exponent * 2 ^ (-exponent) = 1 := by
    rw [← zpow_add₀ (by norm_num), add_neg_cancel, zpow_zero]
  have hquarter : (2 : ℚ) ^ (-2 : ℤ) * 4 = 1 := by norm_num
  have hunit : ((denominator * 2 ^ shift : ℕ) : ℚ) =
      2 ^ (value.exponent - 2) * (4 * 2 ^ (-exponent) * denominator) := by
    have hexponent : value.exponent - 2 = (shift : ℤ) + (exponent + -2) := by omega
    rw [hexponent, zpow_add₀ (by norm_num), zpow_add₀ (by norm_num), zpow_natCast, Nat.cast_mul,
      Nat.cast_pow, Nat.cast_ofNat]
    calc (denominator : ℚ) * 2 ^ shift
        = denominator * 2 ^ shift * ((2 ^ exponent * 2 ^ (-exponent)) * (2 ^ (-2 : ℤ) * 4)) := by
          rw [hcancel, hquarter, mul_one, mul_one]
      _ = 2 ^ shift * (2 ^ exponent * 2 ^ (-2 : ℤ)) * (4 * 2 ^ (-exponent) * denominator) := by
          ring
  have hpoint : ((4 * numerator : ℕ) : ℚ) =
      numerator / denominator * 2 ^ exponent * (4 * 2 ^ (-exponent) * denominator) := by
    calc ((4 * numerator : ℕ) : ℚ)
        = 4 * (numerator / denominator * denominator) * (2 ^ exponent * 2 ^ (-exponent)) := by
          rw [hcancel, mul_one, Nat.cast_mul, Nat.cast_ofNat, div_mul_cancel₀ _ hpos.ne']
      _ = numerator / denominator * 2 ^ exponent * (4 * 2 ^ (-exponent) * denominator) := by ring
  exact names_iff hscale hunit hpoint

/-- The quotient lies in the interval. -/
theorem names_nearestQuotient (hdenominator : 0 < denominator)
    (h : twoTo 52 ≤ numerator / denominator)
    (hexponent : -1022 ≤ (numerator / denominator).log2 + exponent) (negative : Bool) :
    (nearestQuotient negative numerator denominator exponent).Names
      (numerator / denominator * 2 ^ exponent) := by
  obtain ⟨hlow, hhigh, hkept, _⟩ := keptQuotient_bounds hdenominator h
  have hlog : 52 ≤ (numerator / denominator).log2 := by
    rw [twoTo_52] at h
    exact (Nat.le_log2 (by omega)).mpr h
  have hunit : 0 < denominator * 2 ^ ((numerator / denominator).log2 - 52) :=
    Nat.mul_pos hdenominator (Nat.pow_pos (by decide))
  have habove := two_mul_roundDiv_le .toEven numerator hunit
  have hbelow := le_two_mul_roundDiv .toEven numerator hunit
  have hodd : roundDiv .toEven numerator
      (denominator * 2 ^ ((numerator / denominator).log2 - 52)) % 2 = 1 → _ :=
    two_mul_ne_of_roundDiv_odd hunit
  unfold nearestQuotient
  dsimp only
  rw [twoTo_52] at *
  rw [twoTo_53] at *
  -- Rounded up to the next power of two, the form has twice the unit, but not below itself.
  split
  · rename_i hfull
    rw [hfull] at habove hbelow
    have hshift : exponent + (((numerator / denominator).log2 - 52 : ℕ) : ℤ) + 1 =
        exponent + (((numerator / denominator).log2 - 52 + 1 : ℕ) : ℤ) := by
      omega
    have htwice : denominator * 2 ^ ((numerator / denominator).log2 - 52 + 1) =
        denominator * 2 ^ ((numerator / denominator).log2 - 52) * 2 := by
      rw [pow_succ, mul_assoc]
    rw [names_quotient_iff hdenominator hshift, reaches_iff, reaches_iff, lowerEnd_eq, upperEnd,
      htwice]
    dsimp only
    rw [if_pos ⟨rfl, by omega⟩]
    omega
  · rename_i hfull
    rw [names_quotient_iff hdenominator rfl, reaches_iff, reaches_iff, lowerEnd_eq, upperEnd]
    dsimp only
    generalize denominator * 2 ^ ((numerator / denominator).log2 - 52) = unit at *
    generalize roundDiv .toEven numerator unit = kept at *
    have hupper : (4 * kept + 2) * unit = 4 * (unit * kept) + 2 * unit := by ring
    have hlower : ∀ less, (4 * kept - less) * unit = 4 * (unit * kept) - less * unit := by
      intro less
      rw [Nat.sub_mul]
      ring_nf
    rw [hupper]
    by_cases hleast : kept = 4503599627370496
    · have hproduct : unit * kept = 4503599627370496 * unit := by rw [hleast, mul_comm]
      split
      · rw [hlower]
        omega
      · rw [hlower]
        omega
    · rw [if_neg fun hboth => hleast hboth.1, hlower]
      omega

end Binary

end MetricLayer.Decimal
