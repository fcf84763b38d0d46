import MetricLayer.Json.Number
import MetricLayer.Proofs.Decimal.ShortestDigits
import MetricLayer.Proofs.Decimal.WholeNumbers

/-!
# Scaling by powers of ten

A numeral is read by scaling its digits, a whole number of 64 bits, by a power of ten. Downwards
that gives some number in any case. Upwards it is refused if the product is out of range: two
roundings come before the product, but they do not take the shortest digits of a double out of it.
If the digits and the power are small, both are exact and the result is the double that the decimal
names.
-/

namespace MetricLayer.Json

open Decimal Decimal.Binary

theorem exists_powerOfTen {exponent : Nat} (h : exponent ≤ 308) :
    ∃ value, ofFloat? (powerOfTen exponent) = some value ∧
      value.Approximates (10 ^ exponent) := by
  have hone : ((1 : ℕ) : ℚ) * 10 ^ exponent = 10 ^ exponent := by rw [Nat.cast_one, one_mul]
  have hlt : (10 : ℚ) ^ exponent < overflow :=
    (pow_le_pow_right₀ (by norm_num) h).trans_lt tenTo_lt_overflow
  have hscientific := @exists_ofScientific 1 exponent (by decide) (by omega) (hone.symm ▸ hlt)
  rwa [hone] at hscientific

theorem exists_powerOfTen_exact {exponent : Nat} (h : exponent ≤ 22) :
    ∃ value, ofFloat? (powerOfTen exponent) = some value ∧ value.Approximates (10 ^ exponent) ∧
      value.magnitude = 10 ^ exponent ∧ value.exponent ≤ 21 := by
  have hsize : exponent < Float.exactlyRepresentablePowersOfTen.size := by
    rw [size_exactPowers]
    omega
  obtain ⟨value, hvalue, happroximates⟩ := exists_powerOfTen (h.trans (by decide))
  obtain ⟨form, _, hform, hmagnitude, hsmall⟩ := exists_exactPower hsize
  have heq := happroximates.eq_of_names hform.names hform.normal
  refine ⟨value, hvalue, happroximates, ?_, ?_⟩
  · rw [heq]
    exact hmagnitude
  · rw [heq]
    exact hsmall

theorem exists_ofNat_exact {n : Nat} (hpos : 0 < n) (hlt : n < twoTo 53) :
    ∃ value, ofFloat? (Float.ofNat n) = some value ∧ value.Approximates n ∧
      value.magnitude = n := by
  have hbound : n < 18446744073709551616 := by
    rw [twoTo_53] at hlt
    omega
  obtain ⟨value, hvalue, happroximates⟩ := exists_ofNat hpos hbound
  obtain ⟨form, hnormal, _, hmagnitude⟩ :=
    exists_magnitude_of_lt hpos hlt false
  have hform := happroximates.eq_of_names (hmagnitude ▸ form.names_magnitude) hnormal
  refine ⟨value, hvalue, happroximates, ?_⟩
  rw [hform]
  exact hmagnitude

/-- A product in range is taken. -/
theorem scale?_of_product {x : Float} {exponent : Int} {product : Binary} (steps : Nat)
    (hnonneg : 0 ≤ exponent) (hle : exponent.natAbs ≤ 308)
    (h : ofFloat? (x * powerOfTen exponent.natAbs) = some product) :
    scale? (steps + 1) x exponent = some (x * powerOfTen exponent.natAbs) := by
  have hfinite : Decimal.isFinite (x * powerOfTen exponent.natAbs) = true := by
    rw [Decimal.isFinite, h]
    rfl
  rw [scale?, if_pos hle, if_pos hnonneg]
  exact if_pos hfinite

theorem isNaN_div_powerOfTen {x : Float} (hx : x.isNaN = false) {exponent : Nat}
    (h : exponent ≤ 308) : (x / powerOfTen exponent).isNaN = false := by
  obtain ⟨value, hvalue, happroximates⟩ := exists_powerOfTen h
  exact isNaN_div hx hvalue happroximates.significand_ne_zero

theorem exists_scale?_of_neg {x : Float} {exponent : Int} (hx : x.isNaN = false)
    (hneg : exponent < 0) (steps : Nat) :
    ∃ y, scale? steps x exponent = some y ∧ y.isNaN = false := by
  -- Each step keeps a number and leaves the exponent below zero.
  induction steps generalizing x exponent with
  | zero => exact ⟨0.0, rfl, by decide +kernel⟩
  | succ steps ih =>
      rw [scale?]
      by_cases hsmall : exponent.natAbs ≤ 308
      · rw [if_pos hsmall, if_neg (by omega)]
        exact ⟨_, rfl, isNaN_div_powerOfTen hx hsmall⟩
      · rw [if_neg hsmall]
        split
        · exact ⟨x, rfl, hx⟩
        · rw [if_neg (by omega)]
          exact ih (isNaN_div_powerOfTen hx le_rfl) (by omega)

section Scaling

variable {coefficient : Nat} {exponent : Int} {value : Binary}

/-- A product is in range if it is so after two roundings upwards. -/
theorem exists_scale?_of_lt (hpos : 0 < coefficient) (hlt : coefficient < 18446744073709551616)
    {power : Nat} (hpower : power ≤ 308)
    (hfits : (coefficient : ℚ) * 10 ^ power * 9007199254740992 ^ 2 <
      overflow * 9007199254740991 ^ 2) (steps : Nat) :
    ∃ y, scale? (steps + 1) (Float.ofNat coefficient) power = some y ∧ y.isNaN = false := by
  obtain ⟨first, hfirst, hnumber⟩ := exists_ofNat hpos hlt
  obtain ⟨second, hsecond, hten⟩ := exists_powerOfTen hpower
  have hone : (1 : ℚ) ≤ coefficient := by exact_mod_cast hpos
  have hone' : (1 : ℚ) ≤ 10 ^ power := one_le_pow₀ (by norm_num)
  -- Both operands are off by half a unit in the last place at most.
  have hmagnitudes : first.magnitude * second.magnitude < overflow := by
    have hmul := mul_le_mul hnumber.magnitude_le hten.magnitude_le
      (mul_nonneg second.magnitude_nonneg (by norm_num)) (by positivity)
    nlinarith
  obtain ⟨product, hproduct, _⟩ := hnumber.mul hfirst hsecond hten hone hone' hmagnitudes
  exact ⟨_, scale?_of_product steps (Int.natCast_nonneg power) hpower hproduct,
    isNaN_of_ofFloat? hproduct⟩

/-- The three largest doubles are so close to the end of the range that their digits are tried. -/
theorem exists_scale?_largest {negative : Bool} {significand : Nat}
    (hlow : 9007199254740989 ≤ significand) (hhigh : significand < 9007199254740992) :
    let digits := shortest .toEven ⟨negative, significand, 971⟩
    ∃ y, scale? 4 (Float.ofNat digits.coefficient) digits.exponent = some y ∧
      y.isNaN = false := by
  have hall : ∀ (negative : Bool) (index : Fin 3),
      let digits := shortest .toEven ⟨negative, 9007199254740989 + index, 971⟩
      (scale? 4 (Float.ofNat digits.coefficient) digits.exponent).any
        (fun y => y.isNaN = false) = true := by
    decide +kernel
  obtain ⟨y, hy, hnumber⟩ := (Option.any_eq_true _ _).mp
    (hall negative ⟨significand - 9007199254740989, by omega⟩)
  have hsignificand : 9007199254740989 + (significand - 9007199254740989) = significand := by omega
  rw [hsignificand] at hy
  exact ⟨y, hy, decide_eq_true_iff.mp hnumber⟩

/-- Below the three largest doubles the interval ends well before the end of the range. -/
theorem upper_le (hnormal : value.Normal) (hexponent : value.exponent ≤ 971)
    (hsmall : ¬ (value.exponent = 971 ∧ 9007199254740989 ≤ value.significand)) :
    (value.upperEnd : ℚ) * 2 ^ (value.exponent - 2) ≤ 36028797018963954 * 2 ^ (969 : ℤ) := by
  have hlt := hnormal.significand_lt
  rw [twoTo_53] at hlt
  rcases lt_or_eq_of_le hexponent with hless | hmost
  · have hend : (value.upperEnd : ℚ) ≤ 36028797018963966 := by
      rw [upperEnd]
      exact_mod_cast (by omega : 4 * value.significand + 2 ≤ 36028797018963966)
    have hpow : (2 : ℚ) ^ (value.exponent - 2) ≤ 2 ^ (968 : ℤ) :=
      zpow_le_zpow_right₀ (by norm_num) (by omega)
    have htwice : (2 : ℚ) ^ (969 : ℤ) = 2 ^ (968 : ℤ) * 2 := zpow_add_one₀ (by norm_num) 968
    calc (value.upperEnd : ℚ) * 2 ^ (value.exponent - 2)
        ≤ 36028797018963966 * 2 ^ (968 : ℤ) := mul_le_mul hend hpow (by positivity) (by norm_num)
      _ ≤ 36028797018963954 * (2 ^ (968 : ℤ) * 2) := by
          have hunit : (0 : ℚ) < 2 ^ (968 : ℤ) := by positivity
          generalize (2 : ℚ) ^ (968 : ℤ) = unit at hunit
          linarith
      _ = 36028797018963954 * 2 ^ (969 : ℤ) := by rw [htwice]
  · have hend : (value.upperEnd : ℚ) ≤ 36028797018963954 := by
      rw [upperEnd]
      exact_mod_cast (by omega : 4 * value.significand + 2 ≤ 36028797018963954)
    rw [hmost]
    exact mul_le_mul_of_nonneg_right hend (by positivity)

theorem overflow_eq : overflow = 36028797018963966 * 2 ^ (969 : ℤ) := by
  have hsplit : (2 : ℚ) ^ 1024 = 2 ^ 55 * 2 ^ 969 := by rw [← pow_add]
  have hsplit' : (2 : ℚ) ^ 970 = 2 * 2 ^ 969 := by rw [← pow_succ']
  have hpower : (2 : ℚ) ^ (969 : ℤ) = 2 ^ 969 := zpow_natCast 2 969
  rw [overflow, hsplit, hsplit', hpower]
  generalize (2 : ℚ) ^ 969 = unit
  ring

/-- No interval reaches beyond the next power of two. -/
theorem upper_lt_tenTo (hnormal : value.Normal) (hexponent : value.exponent ≤ 971) :
    (value.upperEnd : ℚ) * 2 ^ (value.exponent - 2) < 10 ^ 309 := by
  have hlt := hnormal.significand_lt
  rw [twoTo_53] at hlt
  have hend : (value.upperEnd : ℚ) ≤ 2 ^ 55 := by
    rw [upperEnd]
    exact_mod_cast (by omega : 4 * value.significand + 2 ≤ 2 ^ 55)
  have hpow : (2 : ℚ) ^ (value.exponent - 2) ≤ 2 ^ (969 : ℤ) :=
    zpow_le_zpow_right₀ (by norm_num) (by omega)
  have hnat : 2 ^ 1024 < 10 ^ 309 := by decide +kernel
  have hcast : ((2 ^ 1024 : ℕ) : ℚ) < (10 ^ 309 : ℕ) := Nat.cast_lt.mpr hnat
  rw [Nat.cast_pow, Nat.cast_pow, Nat.cast_ofNat, Nat.cast_ofNat] at hcast
  calc (value.upperEnd : ℚ) * 2 ^ (value.exponent - 2)
      ≤ 2 ^ 55 * 2 ^ (969 : ℤ) := mul_le_mul hend hpow (by positivity) (by positivity)
    _ = 2 ^ 1024 := by
        have hpower : (2 : ℚ) ^ (969 : ℤ) = 2 ^ 969 := zpow_natCast 2 969
        rw [hpower, ← pow_add]
    _ < 10 ^ 309 := hcast

theorem exponent_shortest_le (hnormal : value.Normal) (hexponent : value.exponent ≤ 971)
    (hpositive : 0 < value.significand) (tie : Tie) : (value.shortest tie).exponent ≤ 308 := by
  have hpos := coefficient_shortest_pos hnormal hpositive tie
  have hnames := names_shortest hnormal hpositive tie
  by_contra hlarge
  have hone : (1 : ℚ) ≤ (value.shortest tie).coefficient := by exact_mod_cast hpos
  have hten : (10 : ℚ) ^ (309 : ℤ) ≤ 10 ^ (value.shortest tie).exponent :=
    zpow_le_zpow_right₀ (by norm_num) (by omega)
  have hpower : (10 : ℚ) ^ (309 : ℤ) = 10 ^ 309 := zpow_natCast 10 309
  rw [hpower] at hten
  have hle : (10 : ℚ) ^ (value.shortest tie).exponent ≤
      (value.shortest tie).coefficient * 10 ^ (value.shortest tie).exponent :=
    le_mul_of_one_le_left (by positivity) hone
  have hupper := upper_lt_tenTo hnormal hexponent
  exact absurd hupper (not_lt.mpr (hten.trans (hle.trans hnames.le_upper)))

/-- Seventeen digits at that place are below every double. -/
theorem tenTo_lt_least : (10 : ℚ) ^ 17 * 10 ^ (-1000 : ℤ) < 2 ^ (-1076 : ℤ) := by
  have hnat : 2 ^ 1076 < 10 ^ 983 := by decide +kernel
  have hcast : ((2 ^ 1076 : ℕ) : ℚ) < (10 ^ 983 : ℕ) := Nat.cast_lt.mpr hnat
  rw [Nat.cast_pow, Nat.cast_pow, Nat.cast_ofNat, Nat.cast_ofNat] at hcast
  have hdifference : (10 : ℚ) ^ 17 * 10 ^ (-1000 : ℤ) = 10 ^ (-(983 : ℕ) : ℤ) := by
    rw [← zpow_natCast, ← zpow_add₀ (by norm_num)]
    rfl
  have hpower : (2 : ℚ) ^ (-1076 : ℤ) = (2 ^ 1076)⁻¹ := zpow_neg_coe_of_pos 2 (by decide)
  rw [hdifference, zpow_neg, zpow_natCast, hpower]
  exact inv_strictAnti₀ (by positivity) hcast

theorem lt_exponent_shortest (hnormal : value.Normal) (hpositive : 0 < value.significand)
    (tie : Tie) : -1000 < (value.shortest tie).exponent := by
  have hlt := coefficient_shortest_lt hnormal hpositive tie
  have hnames := names_shortest hnormal hpositive tie
  have hleast := hnormal.exponent_ge
  by_contra hsmall
  have hmost : ((value.shortest tie).coefficient : ℚ) ≤ 10 ^ 17 := by exact_mod_cast hlt.le
  have hten : (10 : ℚ) ^ (value.shortest tie).exponent ≤ 10 ^ (-1000 : ℤ) :=
    zpow_le_zpow_right₀ (by norm_num) (not_lt.mp hsmall)
  have hend : 1 ≤ value.lowerEnd := by
    rw [lowerEnd_eq]
    split <;> omega
  have hend_cast : (1 : ℚ) ≤ value.lowerEnd := by exact_mod_cast hend
  have hunit : (2 : ℚ) ^ (-1076 : ℤ) ≤ 2 ^ (value.exponent - 2) :=
    zpow_le_zpow_right₀ (by norm_num) (by omega)
  have hchain : (2 : ℚ) ^ (-1076 : ℤ) ≤ 10 ^ 17 * 10 ^ (-1000 : ℤ) :=
    calc (2 : ℚ) ^ (-1076 : ℤ)
        ≤ value.lowerEnd * 2 ^ (value.exponent - 2) :=
          hunit.trans (le_mul_of_one_le_left (by positivity) hend_cast)
      _ ≤ (value.shortest tie).coefficient * 10 ^ (value.shortest tie).exponent := hnames.lower_le
      _ ≤ 10 ^ 17 * 10 ^ (-1000 : ℤ) := mul_le_mul hmost hten (by positivity) (by positivity)
  exact absurd tenTo_lt_least (not_lt.mpr hchain)

/-- The shortest digits of a double are read as some number. -/
theorem exists_scale?_shortest (hnormal : value.Normal) (hexponent : value.exponent ≤ 971)
    (hpositive : 0 < value.significand) :
    ∃ y, scale? 4 (Float.ofNat (value.shortest .toEven).coefficient)
        (value.shortest .toEven).exponent = some y ∧ y.isNaN = false := by
  have hpos := coefficient_shortest_pos hnormal hpositive .toEven
  have hlt := coefficient_shortest_lt hnormal hpositive .toEven
  have hnames := names_shortest hnormal hpositive .toEven
  have hmost := exponent_shortest_le hnormal hexponent hpositive .toEven
  by_cases hlarge : value.exponent = 971 ∧ 9007199254740989 ≤ value.significand
  · have hform : value = ⟨value.negative, value.significand, 971⟩ := by rw [← hlarge.1]
    rw [hform]
    exact exists_scale?_largest hlarge.2 hnormal.significand_lt
  · have hupper := hnames.le_upper.trans (upper_le hnormal hexponent hlarge)
    generalize (value.shortest .toEven).coefficient = coefficient at *
    generalize (value.shortest .toEven).exponent = exponent at *
    have hbound : coefficient < 18446744073709551616 := by omega
    by_cases hneg : exponent < 0
    · obtain ⟨number, hnumber, _⟩ := exists_ofNat hpos hbound
      exact exists_scale?_of_neg (isNaN_of_ofFloat? hnumber) hneg 4
    · obtain ⟨power, rfl⟩ : ∃ power : ℕ, exponent = power := ⟨exponent.toNat, by omega⟩
      have hoverflow := overflow_eq
      have hunit : (0 : ℚ) < 2 ^ (969 : ℤ) := by positivity
      rw [zpow_natCast] at hupper
      generalize (2 : ℚ) ^ (969 : ℤ) = unit at *
      refine exists_scale?_of_lt hpos hbound (by omega) ?_ 3
      rw [hoverflow]
      linarith

theorem mul_tenTo_lt_overflow (hlt : coefficient < twoTo 53) {power : Nat} (hpower : power ≤ 22) :
    (coefficient : ℚ) * 10 ^ power < overflow := by
  have hcoefficient : (coefficient : ℚ) ≤ 10 ^ 16 := by
    rw [twoTo_53] at hlt
    exact_mod_cast (by omega : coefficient ≤ 10 ^ 16)
  have hten : (10 : ℚ) ^ power ≤ 10 ^ 22 := pow_le_pow_right₀ (by norm_num) hpower
  calc (coefficient : ℚ) * 10 ^ power
      ≤ 10 ^ 16 * 10 ^ 22 := mul_le_mul hcoefficient hten (by positivity) (by positivity)
    _ = 10 ^ 38 := by rw [← pow_add]
    _ ≤ 10 ^ 308 := pow_le_pow_right₀ (by norm_num) (by norm_num)
    _ < overflow := tenTo_lt_overflow

theorem exists_scale?_exact_up (hpos : 0 < coefficient) (hlt : coefficient < twoTo 53)
    {power : Nat} (hpower : power ≤ 22) (steps : Nat) :
    ∃ y product, scale? (steps + 1) (Float.ofNat coefficient) power = some y ∧
      ofFloat? y = some product ∧ product.Approximates (coefficient * 10 ^ power) := by
  obtain ⟨first, hfirst, hnumber, hcoefficient⟩ := exists_ofNat_exact hpos hlt
  obtain ⟨second, hsecond, hten, hmagnitude, _⟩ := exists_powerOfTen_exact hpower
  obtain ⟨product, hproduct, happroximates⟩ := hnumber.mul hfirst hsecond hten
    (by exact_mod_cast hpos) (one_le_pow₀ (by norm_num))
    (by rw [hcoefficient, hmagnitude]; exact mul_tenTo_lt_overflow hlt hpower)
  rw [hcoefficient, hmagnitude] at happroximates
  exact ⟨_, product, scale?_of_product steps (Int.natCast_nonneg power)
    (hpower.trans (by decide)) hproduct, hproduct, happroximates⟩

theorem exists_scale?_exact_down (hpos : 0 < coefficient) (hlt : coefficient < twoTo 53)
    (hneg : exponent < 0) (hpower : exponent.natAbs ≤ 22) (steps : Nat) :
    ∃ y quotient, scale? (steps + 1) (Float.ofNat coefficient) exponent = some y ∧
      ofFloat? y = some quotient ∧
        quotient.Approximates (coefficient / 10 ^ exponent.natAbs) := by
  obtain ⟨first, hfirst, hnumber, hcoefficient⟩ := exists_ofNat_exact hpos hlt
  obtain ⟨second, hsecond, hten, hmagnitude, hsmall⟩ := exists_powerOfTen_exact hpower
  have hone : (1 : ℚ) ≤ coefficient := by exact_mod_cast hpos
  have hone' : (1 : ℚ) ≤ 10 ^ exponent.natAbs := one_le_pow₀ (by norm_num)
  have hfirst_exponent := hnumber.exponent_ge hone
  have hless : first.magnitude / second.magnitude < overflow := by
    rw [hcoefficient, hmagnitude]
    calc (coefficient : ℚ) / 10 ^ exponent.natAbs
        ≤ coefficient := div_le_self (by positivity) hone'
      _ ≤ coefficient * 10 ^ exponent.natAbs := le_mul_of_one_le_right (by positivity) hone'
      _ < overflow := mul_tenTo_lt_overflow hlt hpower
  obtain ⟨quotient, hquotient, happroximates⟩ := hnumber.div hfirst hsecond hten (by omega) hless
  rw [hcoefficient, hmagnitude] at happroximates
  refine ⟨_, quotient, ?_, hquotient, happroximates⟩
  rw [scale?, if_pos (by omega), if_neg (by omega)]

/-- Small digits times a small power of ten are read as the double that the decimal names. -/
theorem exists_scale?_exact (hpos : 0 < coefficient) (hlt : coefficient < twoTo 53)
    (hexponent : exponent.natAbs ≤ 22) (hnormal : value.Normal)
    (hnames : value.Names (coefficient * 10 ^ exponent)) :
    twoTo 52 ≤ value.significand ∧
      ∃ y, scale? 4 (Float.ofNat coefficient) exponent = some y ∧
        ofFloat? y = some { value with negative := false } := by
  have hscaled : ∃ y form, scale? 4 (Float.ofNat coefficient) exponent = some y ∧
      ofFloat? y = some form ∧ form.Approximates (coefficient * 10 ^ exponent) := by
    by_cases hneg : exponent < 0
    · have hvalue : (coefficient : ℚ) / 10 ^ exponent.natAbs = coefficient * 10 ^ exponent := by
        have hpower : exponent = -(exponent.natAbs : ℤ) := by omega
        nth_rewrite 2 [hpower]
        rw [zpow_neg, zpow_natCast, div_eq_mul_inv]
      rw [← hvalue]
      exact exists_scale?_exact_down hpos hlt hneg hexponent 3
    · obtain ⟨power, rfl⟩ : ∃ power : ℕ, exponent = power := ⟨exponent.toNat, by omega⟩
      rw [zpow_natCast]
      exact exists_scale?_exact_up hpos hlt hexponent 3
  obtain ⟨y, form, hy, hform, happroximates⟩ := hscaled
  have hleading := happroximates.leading
  rw [happroximates.eq_of_names hnames hnormal] at hform hleading
  exact ⟨hleading, y, hy, hform⟩

end Scaling

end MetricLayer.Json
