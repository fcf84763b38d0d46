import MetricLayer.Decimal.Shortest
import Mathlib

/-!
# Doubles and the decimals that name them

The form of a finite double as significand and exponent is normal, and a double has one form only.
A decimal names a magnitude if it lies in the interval of the numbers that round to it. Intervals of
different magnitudes do not overlap, and where two of them touch at most one of them holds the
decimal in between; so a decimal names one magnitude at most.
-/

namespace MetricLayer.Decimal

theorem twoTo_eq_pow (exponent : Nat) : twoTo exponent = 2 ^ exponent := rfl

theorem tenTo_eq_pow (exponent : Nat) : tenTo exponent = 10 ^ exponent := rfl

theorem twoTo_52 : twoTo 52 = 4503599627370496 := rfl

theorem twoTo_53 : twoTo 53 = 9007199254740992 := rfl

theorem zpow_mul_pow_neg {base : ℚ} (hbase : base ≠ 0) (exponent : ℤ) :
    base ^ exponent * base ^ (-exponent).toNat = base ^ exponent.toNat := by
  rw [← zpow_natCast, ← zpow_natCast, ← zpow_add₀ hbase]
  congr 1
  omega

namespace Binary

/-- The significand has 53 digits, and fewer only at the least exponent. -/
structure Normal (value : Binary) : Prop where
  significand_lt : value.significand < twoTo 53
  exponent_ge : -1074 ≤ value.exponent
  leading : twoTo 52 ≤ value.significand ∨ value.exponent = -1074

theorem normal_of_ofFloat? {x : Float} {value : Binary} (h : ofFloat? x = some value) :
    value.Normal := by
  have hfraction : x.toBits.toNat % twoTo 52 < twoTo 52 := Nat.mod_lt _ (twoTo_pos _)
  rw [twoTo_52] at hfraction
  unfold ofFloat? at h
  dsimp only at h
  generalize hmod : x.toBits.toNat % twoTo 52 = fraction at h
  rw [twoTo_52] at hmod h
  split at h
  · cases h
  · split at h
    · obtain rfl := Option.some.inj h
      refine ⟨?_, le_refl _, .inr rfl⟩
      rw [twoTo_53]
      dsimp only
      omega
    · obtain rfl := Option.some.inj h
      refine ⟨?_, ?_, .inl ?_⟩
      · rw [twoTo_53]
        dsimp only
        omega
      · dsimp only
        omega
      · rw [twoTo_52]
        dsimp only
        omega

def bits (value : Binary) : Nat :=
  (if value.negative then twoTo 63 else 0) +
    if value.significand < twoTo 52 then value.significand
    else (value.exponent + 1075).toNat * twoTo 52 + (value.significand - twoTo 52)

theorem bits_eq_of_ofFloat? {x : Float} {value : Binary} (h : ofFloat? x = some value) :
    value.bits = x.toBits.toNat := by
  have hlt := x.toBits.toNat_lt
  have h63 : twoTo 63 = 9223372036854775808 := rfl
  have h11 : twoTo 11 = 2048 := rfl
  unfold ofFloat? at h
  dsimp only at h
  rw [h63, h11, twoTo_52] at h
  split at h
  · cases h
  · have hnegative : ∀ bits : Nat, bits < 18446744073709551616 →
        (if (bits / 9223372036854775808 == 1) = true then 9223372036854775808 else 0) =
          bits / 9223372036854775808 * 9223372036854775808 := by
      intro bits hbits
      by_cases hbit : bits / 9223372036854775808 = 1
      · simp [hbit]
      · have hzero : bits / 9223372036854775808 = 0 := by omega
        simp [hzero]
    split at h
    · obtain rfl := Option.some.inj h
      rw [bits, h63, twoTo_52]
      dsimp only
      rw [hnegative _ hlt, if_pos (by omega)]
      omega
    · obtain rfl := Option.some.inj h
      rw [bits, h63, twoTo_52]
      dsimp only
      rw [hnegative _ hlt, if_neg (by omega)]
      omega

theorem ofFloat?_inj {x y : Float} {value : Binary} (hx : ofFloat? x = some value)
    (hy : ofFloat? y = some value) : x = y := by
  apply Float.toBits_inj.mp
  apply UInt64.toNat_inj.mp
  rw [← bits_eq_of_ofFloat? hx, bits_eq_of_ofFloat? hy]

/-- Reading the decimal gives the magnitude: it lies between the ends of the interval, and on an
end only if the significand is even. -/
structure Names (value : Binary) (decimal : ℚ) : Prop where
  lower_le : value.lowerEnd * 2 ^ (value.exponent - 2) ≤ decimal
  le_upper : decimal ≤ value.upperEnd * 2 ^ (value.exponent - 2)
  ne_lower : value.significand % 2 = 1 → decimal ≠ value.lowerEnd * 2 ^ (value.exponent - 2)
  ne_upper : value.significand % 2 = 1 → decimal ≠ value.upperEnd * 2 ^ (value.exponent - 2)

/-- The order of the ends and the points: an end counts only if the significand is even. -/
def reaches (value : Binary) (low high : Nat) : Bool :=
  if value.significand % 2 = 0 then decide (low ≤ high) else decide (low < high)

theorem reaches_iff {value : Binary} {low high : Nat} : value.reaches low high = true ↔
    low ≤ high ∧ (value.significand % 2 = 1 → low ≠ high) := by
  unfold reaches
  split
  · rw [decide_eq_true_iff]
    omega
  · rw [decide_eq_true_iff]
    omega

/-- The interval in natural numbers, after scaling. -/
theorem names_iff {value : Binary} {decimal scale : ℚ} {unit point : Nat} (hscale : 0 < scale)
    (hunit : (unit : ℚ) = 2 ^ (value.exponent - 2) * scale)
    (hpoint : (point : ℚ) = decimal * scale) :
    value.Names decimal ↔
      value.reaches (value.lowerEnd * unit) point = true ∧
        value.reaches point (value.upperEnd * unit) = true := by
  have hends : ∀ bound : Nat, ((bound * unit : ℕ) : ℚ) =
      bound * 2 ^ (value.exponent - 2) * scale := by
    intro bound
    rw [Nat.cast_mul, hunit, mul_assoc]
  have hle : ∀ bound : Nat, bound * unit ≤ point ↔
      bound * 2 ^ (value.exponent - 2) ≤ decimal := by
    intro bound
    rw [← Nat.cast_le (α := ℚ), hends, hpoint, mul_le_mul_iff_left₀ hscale]
  have hge : ∀ bound : Nat, point ≤ bound * unit ↔
      decimal ≤ bound * 2 ^ (value.exponent - 2) := by
    intro bound
    rw [← Nat.cast_le (α := ℚ), hends, hpoint, mul_le_mul_iff_left₀ hscale]
  have heq : ∀ bound : Nat, bound * unit = point ↔
      decimal = bound * 2 ^ (value.exponent - 2) := by
    intro bound
    rw [le_antisymm_iff, hle, hge, le_antisymm_iff, and_comm]
  have heq' : point = value.upperEnd * unit ↔
      decimal = value.upperEnd * 2 ^ (value.exponent - 2) := eq_comm.trans (heq _)
  rw [reaches_iff, reaches_iff, hle, hge, Ne, heq, Ne, heq']
  constructor
  · intro h
    exact ⟨⟨h.lower_le, h.ne_lower⟩, h.le_upper, h.ne_upper⟩
  · rintro ⟨⟨hlower, hne_lower⟩, hupper, hne_upper⟩
    exact ⟨hlower, hupper, hne_lower, hne_upper⟩

/-- The order of magnitudes on normal forms. -/
def Below (first second : Binary) : Prop :=
  first.exponent < second.exponent ∨
    first.exponent = second.exponent ∧ first.significand < second.significand

theorem lowerEnd_eq (value : Binary) :
    value.lowerEnd = if value.significand = 4503599627370496 ∧ -1074 < value.exponent then
      4 * value.significand - 1 else 4 * value.significand - 2 := rfl

theorem names_zero {value : Binary} (h : value.significand = 0) : value.Names 0 := by
  have hlower : value.lowerEnd = 0 := by
    rw [lowerEnd_eq, h]
    rfl
  constructor
  · rw [hlower, Nat.cast_zero, zero_mul]
  · positivity
  · omega
  · omega

variable {first second : Binary}

/-- The interval of the smaller magnitude ends where that of the larger one begins, or before. In
the first case not both of them hold the point that they share. -/
theorem Below.ends (h : first.Below second) (hfirst : first.Normal) (hsecond : second.Normal) :
    ∃ gap : Nat, second.exponent = first.exponent + gap ∧
      (first.upperEnd < second.lowerEnd * 2 ^ gap ∨
        first.upperEnd = second.lowerEnd * 2 ^ gap ∧
          (first.significand % 2 = 1 ∨ second.significand % 2 = 1)) := by
  have hfirst_lt := hfirst.significand_lt
  have hfirst_ge := hfirst.exponent_ge
  have hleading := hsecond.leading
  rw [twoTo_53] at hfirst_lt
  rw [twoTo_52] at hleading
  rw [upperEnd, lowerEnd_eq]
  rcases h with hexponent | ⟨hexponent, hsignificand⟩
  · obtain ⟨less, hgap⟩ : ∃ less : Nat, second.exponent = first.exponent + (less + 1 : Nat) :=
      ⟨(second.exponent - first.exponent - 1).toNat, by omega⟩
    refine ⟨less + 1, hgap, ?_⟩
    have hpos : 0 < 2 ^ less := Nat.pow_pos (by decide)
    have htwice : (2 : ℕ) ^ (less + 1) = 2 * 2 ^ less := by rw [pow_succ, mul_comm]
    rw [htwice]
    by_cases hleast : second.significand = 4503599627370496
    · rw [if_pos ⟨hleast, by omega⟩, hleast]
      rcases Nat.eq_or_lt_of_le hpos with hone | hmore
      · rw [← hone]
        omega
      · left
        nlinarith
    · rw [if_neg fun hboth => hleast hboth.1]
      left
      have hsecond_lt : 4503599627370496 < second.significand := by omega
      have hlower : 18014398509481986 ≤ 4 * second.significand - 2 := by omega
      calc 4 * first.significand + 2 < 18014398509481986 * (2 * 1) := by omega
        _ ≤ (4 * second.significand - 2) * (2 * 2 ^ less) :=
          Nat.mul_le_mul hlower (Nat.mul_le_mul_left 2 hpos)
  · refine ⟨0, by rw [hexponent, Nat.cast_zero, add_zero], ?_⟩
    have hfirst_leading := hfirst.leading
    rw [twoTo_52] at hfirst_leading
    rw [if_neg fun hboth => by omega, pow_zero, mul_one]
    omega

/-- The decimals in the interval of the smaller magnitude are smaller. -/
theorem Below.lt_of_names (h : first.Below second) (hfirst : first.Normal) (hsecond : second.Normal)
    {p q : ℚ} (hp : first.Names p) (hq : second.Names q) : p < q := by
  obtain ⟨gap, hgap, hends⟩ := h.ends hfirst hsecond
  have hunit : (0 : ℚ) < 2 ^ (first.exponent - 2) := by positivity
  have hscale : (second.lowerEnd : ℚ) * 2 ^ (second.exponent - 2) =
      (second.lowerEnd * 2 ^ gap : ℕ) * 2 ^ (first.exponent - 2) := by
    have hexponent : second.exponent - 2 = (gap : ℤ) + (first.exponent - 2) := by omega
    rw [hexponent, zpow_add₀ (by norm_num), zpow_natCast, Nat.cast_mul, Nat.cast_pow, mul_assoc,
      Nat.cast_ofNat]
  have hlower := hq.lower_le
  have hupper := hp.le_upper
  rw [hscale] at hlower
  rcases hends with hlt | ⟨heq, hodd⟩
  · have hmul := mul_lt_mul_of_pos_right (Nat.cast_lt.mpr hlt : (first.upperEnd : ℚ) < _) hunit
    linarith
  · rw [← heq] at hlower hscale
    refine lt_of_le_of_ne (hupper.trans hlower) fun hmiddle => ?_
    have hpoint : p = first.upperEnd * 2 ^ (first.exponent - 2) :=
      le_antisymm hupper (hlower.trans_eq hmiddle.symm)
    rcases hodd with hodd | hodd
    · exact hp.ne_upper hodd hpoint
    · exact hq.ne_lower hodd (hmiddle.symm.trans (hpoint.trans hscale.symm))

theorem below_or_eq_or_below (first second : Binary) :
    first.Below second ∨
      (first.significand = second.significand ∧ first.exponent = second.exponent) ∨
        second.Below first := by
  unfold Below
  omega

/-- A decimal names one magnitude at most. -/
theorem Names.unique {decimal : ℚ} (hfirst : first.Names decimal) (hsecond : second.Names decimal)
    (hfirst_normal : first.Normal) (hsecond_normal : second.Normal) :
    first.significand = second.significand ∧ first.exponent = second.exponent := by
  rcases below_or_eq_or_below first second with hbelow | heq | hbelow
  · exact absurd (hbelow.lt_of_names hfirst_normal hsecond_normal hfirst hsecond) (lt_irrefl _)
  · exact heq
  · exact absurd (hbelow.lt_of_names hsecond_normal hfirst_normal hsecond hfirst) (lt_irrefl _)

def magnitude (value : Binary) : ℚ := value.significand * 2 ^ value.exponent

theorem magnitude_nonneg (value : Binary) : 0 ≤ value.magnitude := by
  rw [magnitude]
  positivity

theorem magnitude_pos {value : Binary} (h : value.significand ≠ 0) : 0 < value.magnitude := by
  have hpos : 0 < value.significand := Nat.pos_of_ne_zero h
  rw [magnitude]
  positivity

theorem numerator_div_denominator (value : Binary) :
    (value.numerator : ℚ) / value.denominator = value.magnitude := by
  have hpos : (0 : ℚ) < 2 ^ (-value.exponent).toNat := by positivity
  rw [magnitude, numerator, denominator, twoTo_eq_pow, twoTo_eq_pow, Nat.cast_mul, Nat.cast_pow,
    Nat.cast_pow, Nat.cast_ofNat, ← zpow_mul_pow_neg (by norm_num) value.exponent,
    div_eq_iff hpos.ne', mul_assoc]

/-- The magnitude in quarters of a unit. -/
theorem magnitude_eq (value : Binary) :
    value.magnitude = (4 * value.significand : ℕ) * 2 ^ (value.exponent - 2) := by
  have hsplit : (2 : ℚ) ^ value.exponent = 4 * 2 ^ (value.exponent - 2) := by
    rw [zpow_sub₀ (by norm_num)]
    norm_num
    ring
  rw [magnitude, hsplit, Nat.cast_mul, Nat.cast_ofNat]
  ring

theorem lowerEnd_le (value : Binary) : value.lowerEnd ≤ 4 * value.significand := by
  rw [lowerEnd_eq]
  split <;> omega

theorem lt_upperEnd (value : Binary) : 4 * value.significand < value.upperEnd := by
  rw [upperEnd]
  omega

theorem names_magnitude (value : Binary) : value.Names value.magnitude := by
  have hunit : (0 : ℚ) < 2 ^ (value.exponent - 2) := by positivity
  have hupper := mul_lt_mul_of_pos_right (Nat.cast_lt.mpr value.lt_upperEnd) hunit
  rw [magnitude_eq]
  constructor
  · exact mul_le_mul_of_nonneg_right (Nat.cast_le.mpr value.lowerEnd_le) hunit.le
  · exact hupper.le
  · intro hodd
    have hlt : value.lowerEnd < 4 * value.significand := by
      rw [lowerEnd_eq]
      split <;> omega
    exact (mul_lt_mul_of_pos_right (Nat.cast_lt.mpr hlt) hunit).ne'
  · exact fun _ => hupper.ne

theorem Below.magnitude_lt (h : first.Below second) (hfirst : first.Normal)
    (hsecond : second.Normal) : first.magnitude < second.magnitude :=
  h.lt_of_names hfirst hsecond first.names_magnitude second.names_magnitude

theorem Names.magnitude_le {p q : ℚ} (hp : first.Names p) (hq : second.Names q) (h : p ≤ q)
    (hfirst : first.Normal) (hsecond : second.Normal) : first.magnitude ≤ second.magnitude := by
  rcases below_or_eq_or_below first second with hbelow | ⟨hsignificand, hexponent⟩ | hbelow
  · exact (hbelow.magnitude_lt hfirst hsecond).le
  · rw [magnitude, magnitude, hsignificand, hexponent]
  · exact absurd (hbelow.lt_of_names hsecond hfirst hq hp) (not_lt.mpr h)

/-- The number itself. -/
def toRat (value : Binary) : ℚ := if value.negative then -value.magnitude else value.magnitude

theorem abs_toRat (value : Binary) : |value.toRat| = value.magnitude := by
  unfold toRat
  split
  · rw [abs_neg, abs_of_nonneg value.magnitude_nonneg]
  · exact abs_of_nonneg value.magnitude_nonneg

theorem toRat_of_toInt? {value : Binary} {n : Int} (h : value.toInt? = some n) :
    value.toRat = n := by
  unfold toInt? at h
  dsimp only at h
  split at h
  · rename_i hwhole
    have hpositive : (value.denominator : ℚ) ≠ 0 := by exact_mod_cast value.denominator_pos.ne'
    have hmagnitude : value.magnitude = (value.numerator / value.denominator : ℕ) := by
      rw [Nat.cast_div (Nat.dvd_of_mod_eq_zero hwhole) hpositive, numerator_div_denominator]
    rw [toRat, hmagnitude]
    generalize value.numerator / value.denominator = magnitude at *
    obtain rfl := Option.some.inj h
    cases value.negative
    · rw [if_neg Bool.false_ne_true, if_neg Bool.false_ne_true, Int.cast_natCast]
    · rw [if_pos rfl, if_pos rfl, Int.cast_neg, Int.cast_natCast]
  · cases h

theorem magnitude_of_toRat {value : Binary} {n : Int} (h : value.toRat = n) :
    value.magnitude = n.natAbs := by
  rw [← abs_toRat, h, Nat.cast_natAbs, Int.cast_abs]

end Binary

end MetricLayer.Decimal
