import MetricLayer.Proofs.Decimal.WholeNumbers

/-!
# Whole numbers that share a double

Below `2 ^ 53` every whole number is a double. From there to `2 ^ 54` only the even ones are, and
an odd one goes to the neighbor whose half is even; beyond, every double is that of its neighbors.
-/

namespace MetricLayer.Decimal.Binary

section Magnitudes

variable {value : Binary} {n : Nat}

/-- The exponent of a whole magnitude that is large. -/
theorem exists_exponent_of_magnitude (hnormal : value.Normal) (h : value.magnitude = n)
    (hpositive : 0 < value.exponent) :
    ∃ shift : Nat, value.exponent = (shift + 1 : ℕ) ∧ n = value.significand * 2 ^ (shift + 1) ∧
      4503599627370496 ≤ value.significand := by
  obtain ⟨shift, hshift⟩ : ∃ shift : Nat, value.exponent = (shift + 1 : ℕ) :=
    ⟨(value.exponent - 1).toNat, by omega⟩
  have hleading := hnormal.leading
  rw [twoTo_52] at hleading
  refine ⟨shift, hshift, ?_, by omega⟩
  rw [magnitude, hshift, zpow_natCast] at h
  exact_mod_cast h.symm

theorem names_iff_of_exponent {shift other : Nat} (h : value.exponent = shift) :
    value.Names other ↔
      value.reaches (value.lowerEnd * 2 ^ shift) (4 * other) = true ∧
        value.reaches (4 * other) (value.upperEnd * 2 ^ shift) = true := by
  have hunit : ((2 ^ shift : ℕ) : ℚ) = 2 ^ (value.exponent - 2) * 4 := by
    rw [h, zpow_sub₀ (by norm_num), zpow_natCast, Nat.cast_pow, Nat.cast_ofNat]
    norm_num
  have hpoint : ((4 * other : ℕ) : ℚ) = other * 4 := by
    rw [Nat.cast_mul, Nat.cast_ofNat, mul_comm]
  exact names_iff (by norm_num) hunit hpoint

/-- With a fraction of a unit to spare the interval holds one whole number. -/
theorem Names.eq_of_exponent_le {other : Nat} (hnames : value.Names other)
    (h : value.magnitude = n) (hexponent : value.exponent ≤ 0) : other = n := by
  have hunit : (2 : ℚ) ^ (value.exponent - 2) ≤ 1 / 4 := by
    have hpow : (2 : ℚ) ^ (value.exponent - 2) ≤ 2 ^ (-2 : ℤ) :=
      zpow_le_zpow_right₀ (by norm_num) (by omega)
    norm_num at hpow ⊢
    exact hpow
  have hpositive : (0 : ℚ) < 2 ^ (value.exponent - 2) := by positivity
  have hlower := hnames.lower_le
  have hupper := hnames.le_upper
  have hends : 4 * value.significand ≤ value.lowerEnd + 2 := by
    rw [lowerEnd_eq]
    split <;> omega
  have hends_cast : ((4 * value.significand : ℕ) : ℚ) ≤ value.lowerEnd + 2 := by
    exact_mod_cast hends
  have hupper_cast : (value.upperEnd : ℚ) = (4 * value.significand : ℕ) + 2 := by
    rw [upperEnd, Nat.cast_add, Nat.cast_ofNat]
  rw [magnitude_eq] at h
  rw [hupper_cast] at hupper
  generalize (2 : ℚ) ^ (value.exponent - 2) = unit at *
  have habove : (other : ℚ) < n + 1 := by nlinarith
  have hbelow : (n : ℚ) < other + 1 := by nlinarith
  have habove_nat : other < n + 1 := by exact_mod_cast habove
  have hbelow_nat : n < other + 1 := by exact_mod_cast hbelow
  omega

/-- The magnitudes that are no double of another whole number. -/
def OwnDouble (n : Nat) : Prop :=
  n < 9007199254740992 ∨ n < 18014398509481984 ∧ n % 4 = 2

instance (n : Nat) : Decidable (OwnDouble n) := inferInstanceAs (Decidable (_ ∨ _ ∧ _))

theorem Names.eq_of_ownDouble {other : Nat} (hnames : value.Names other) (hnormal : value.Normal)
    (h : value.magnitude = n) (hown : OwnDouble n) : other = n := by
  by_cases hpositive : 0 < value.exponent
  · obtain ⟨shift, hshift, rfl, hleading⟩ := exists_exponent_of_magnitude hnormal h hpositive
    have hunit : 0 < 2 ^ shift := Nat.pow_pos (by decide)
    cases shift with
    | zero =>
        obtain ⟨hlower, hupper⟩ := (names_iff_of_exponent hshift).mp hnames
        obtain ⟨hlower_le, hlower_ne⟩ := reaches_iff.mp hlower
        obtain ⟨hupper_le, hupper_ne⟩ := reaches_iff.mp hupper
        unfold OwnDouble at hown
        rw [lowerEnd_eq] at hlower_le hlower_ne
        rw [upperEnd] at hupper_le hupper_ne
        rw [zero_add, pow_one] at *
        by_cases hleast : value.significand = 4503599627370496 ∧ -1074 < value.exponent
        · omega
        · rw [if_neg hleast] at hlower_le hlower_ne
          omega
    | succ shift =>
        have hlarge : 4503599627370496 * 4 ≤ value.significand * 2 ^ (shift + 1 + 1) := by
          refine Nat.mul_le_mul hleading ?_
          rw [pow_succ, pow_succ]
          have hone : 0 < 2 ^ shift := Nat.pow_pos (by decide)
          omega
        unfold OwnDouble at hown
        omega
  · exact hnames.eq_of_exponent_le h (not_lt.mp hpositive)

/-- The other magnitudes have the double of a neighbor. -/
theorem exists_names_of_not_ownDouble (hnormal : value.Normal) (h : value.magnitude = n)
    (hown : ¬ OwnDouble n) :
    ∃ other : Nat, value.Names other ∧ (other = n + 1 ∧ n < 18014398509481984 ∨ other + 1 = n) := by
  unfold OwnDouble at hown
  have hpositive : 0 < value.exponent := by
    by_contra hexponent
    have hunit : (2 : ℚ) ^ value.exponent ≤ 2 ^ (0 : ℤ) :=
      zpow_le_zpow_right₀ (by norm_num) (not_lt.mp hexponent)
    have hle : (n : ℚ) ≤ value.significand := by
      rw [← h, magnitude]
      rw [zpow_zero] at hunit
      exact mul_le_of_le_one_right (Nat.cast_nonneg _) hunit
    have hle_nat : n ≤ value.significand := by exact_mod_cast hle
    have hlt := hnormal.significand_lt
    rw [twoTo_53] at hlt
    omega
  obtain ⟨shift, hshift, hn, hleading⟩ := exists_exponent_of_magnitude hnormal h hpositive
  have hlt := hnormal.significand_lt
  rw [twoTo_53] at hlt
  cases shift with
  | zero =>
      rw [zero_add, pow_one] at hn
      refine ⟨n + 1, (names_iff_of_exponent hshift).mpr ?_, .inl ⟨rfl, by omega⟩⟩
      rw [reaches_iff, reaches_iff, lowerEnd_eq, upperEnd, zero_add, pow_one]
      split <;> omega
  | succ shift =>
      refine ⟨n - 1, (names_iff_of_exponent hshift).mpr ?_, .inr (by omega)⟩
      have hone : 0 < 2 ^ shift := Nat.pow_pos (by decide)
      have hdouble : (2 : ℕ) ^ (shift + 1 + 1) = 4 * 2 ^ shift := by
        rw [pow_succ, pow_succ]
        ring
      rw [hdouble] at hn ⊢
      generalize 2 ^ shift = unit at *
      have hquarter : 4 * n = 4 * value.significand * (4 * unit) := by rw [hn, mul_assoc]
      have hbelow : ∀ less, value.lowerEnd + less ≤ 4 * value.significand →
          value.lowerEnd * (4 * unit) + less * (4 * unit) ≤ 4 * n := by
        intro less hless
        rw [← Nat.add_mul, hquarter]
        exact Nat.mul_le_mul_right _ hless
      have hends : value.lowerEnd + 1 ≤ 4 * value.significand ∧
          (value.significand % 2 = 1 → value.lowerEnd + 2 ≤ 4 * value.significand) := by
        rw [lowerEnd_eq]
        split <;> omega
      have hone_below := hbelow 1 hends.1
      have hupper : 4 * n < value.upperEnd * (4 * unit) := by
        rw [hquarter]
        exact Nat.mul_lt_mul_of_pos_right value.lt_upperEnd (by omega)
      rw [reaches_iff, reaches_iff]
      refine ⟨⟨by omega, fun hodd => ?_⟩, by omega, by omega⟩
      have htwo_below := hbelow 2 (hends.2 hodd)
      omega

end Magnitudes

section Rounding

variable {first second : Binary} {m n : Int}

theorem Names.congr {decimal : ℚ} (hsignificand : first.significand = second.significand)
    (hexponent : first.exponent = second.exponent) (h : first.Names decimal) :
    second.Names decimal := by
  obtain ⟨negative, significand, exponent⟩ := first
  obtain ⟨negative', significand', exponent'⟩ := second
  obtain rfl : significand = significand' := hsignificand
  obtain rfl : exponent = exponent' := hexponent
  exact ⟨h.lower_le, h.le_upper, h.ne_lower, h.ne_upper⟩

theorem Rounds.unique (hfirst : first.Rounds n) (hsecond : second.Rounds n) : first = second := by
  obtain ⟨hsignificand, hexponent⟩ :=
    hfirst.names.unique hsecond.names hfirst.normal hsecond.normal
  have hnegative := hfirst.negative.trans hsecond.negative.symm
  cases first
  cases second
  simp_all

theorem Rounds.toRat_eq (h : first.Rounds n) :
    first.toRat = if n < 0 then -first.magnitude else first.magnitude := by
  rw [toRat, h.negative]
  simp only [decide_eq_true_eq]

theorem Rounds.toRat_le (hm : first.Rounds m) (hn : second.Rounds n) (h : m ≤ n) :
    first.toRat ≤ second.toRat := by
  have hfirst := first.magnitude_nonneg
  have hsecond := second.magnitude_nonneg
  rw [hm.toRat_eq, hn.toRat_eq]
  by_cases hneg : n < 0
  · have habs : ((n.natAbs : ℕ) : ℚ) ≤ m.natAbs := Nat.cast_le.mpr (by omega)
    have hle := hn.names.magnitude_le hm.names habs hn.normal hm.normal
    rw [if_pos (by omega), if_pos hneg]
    exact neg_le_neg hle
  · rw [if_neg hneg]
    by_cases hneg' : m < 0
    · rw [if_pos hneg']
      linarith
    · have habs : ((m.natAbs : ℕ) : ℚ) ≤ n.natAbs := Nat.cast_le.mpr (by omega)
      rw [if_neg hneg']
      exact hm.names.magnitude_le hn.names habs hm.normal hn.normal

/-- A whole number that a double stands for is rounded to that double. -/
theorem Rounds.toRat_of_exact (hn : second.Rounds n) (hfirst : first.Normal)
    (hexact : first.toRat = n) : second.toRat = n := by
  have hmagnitude := magnitude_of_toRat hexact
  have hnames := first.names_magnitude
  rw [hmagnitude] at hnames
  obtain ⟨hsignificand, hexponent⟩ := hnames.unique hn.names hfirst hn.normal
  rw [hn.toRat_eq, magnitude, ← hsignificand, ← hexponent, ← magnitude, hmagnitude]
  by_cases hneg : n < 0
  · rw [if_pos hneg, ← Int.cast_natCast, ← Int.cast_neg]
    congr 1
    omega
  · rw [if_neg hneg, ← Int.cast_natCast]
    congr 1
    omega

theorem Rounds.toRat_ne (hm : first.Rounds m) (hn : second.Rounds n) (hexact : second.toRat = n)
    (hown : OwnDouble n.natAbs) (hne : m ≠ n) : first.toRat ≠ second.toRat := by
  intro heq
  have hmagnitude : first.magnitude = second.magnitude := by
    rw [← abs_toRat, ← abs_toRat, heq]
  have hnames := first.names_magnitude
  rw [hmagnitude] at hnames
  obtain ⟨hsignificand, hexponent⟩ :=
    hnames.unique second.names_magnitude hm.normal hn.normal
  have hmagnitude_n := magnitude_of_toRat hexact
  have habs : m.natAbs = n.natAbs :=
    (hm.names.congr hsignificand hexponent).eq_of_ownDouble hn.normal hmagnitude_n hown
  have hpositive : 0 < second.magnitude := by
    rw [hmagnitude_n, Nat.cast_pos]
    omega
  rw [hm.toRat_eq, hn.toRat_eq, hmagnitude] at heq
  by_cases hneg : n < 0
  · rw [if_neg (by omega), if_pos hneg] at heq
    linarith
  · rw [if_pos (by omega), if_neg hneg] at heq
    linarith

/-- A whole number with a double of its own compares with others like their doubles do. -/
theorem Rounds.compare_eq (hm : first.Rounds m) (hn : second.Rounds n)
    (hexact : second.toRat = n) (hown : OwnDouble n.natAbs) :
    compare first.toRat second.toRat = compare m n := by
  rcases lt_trichotomy m n with hlt | rfl | hgt
  · have hle := hm.toRat_le hn hlt.le
    have hne := hm.toRat_ne hn hexact hown hlt.ne
    rw [compare_lt_iff_lt.mpr hlt, compare_lt_iff_lt.mpr (lt_of_le_of_ne hle hne)]
  · rw [hm.unique hn, compare_eq_iff_eq.mpr rfl, compare_eq_iff_eq.mpr rfl]
  · have hle := hn.toRat_le hm hgt.le
    have hne := hm.toRat_ne hn hexact hown hgt.ne'
    rw [compare_gt_iff_gt.mpr hgt, compare_gt_iff_gt.mpr (lt_of_le_of_ne hle hne.symm)]

/-- A whole number without a double of its own has that of another one. -/
theorem Rounds.exists_ne (hn : first.Rounds n) (hexact : first.toRat = n)
    (hown : ¬ OwnDouble n.natAbs) :
    ∃ m, m ≠ n ∧ (m.natAbs ≤ 18014398509481984 ∨ m.natAbs < n.natAbs) ∧ first.Rounds m := by
  obtain ⟨other, hnames, hother⟩ := exists_names_of_not_ownDouble hn.normal
    (magnitude_of_toRat hexact) hown
  unfold OwnDouble at hown
  by_cases hneg : n < 0
  · refine ⟨-other, by omega, by omega, hn.normal, ?_, ?_⟩
    · rw [hn.negative, decide_eq_true hneg, decide_eq_true (by omega)]
    · rw [Int.natAbs_neg, Int.natAbs_natCast]
      exact hnames
  · refine ⟨other, by omega, by omega, hn.normal, ?_, ?_⟩
    · rw [hn.negative, decide_eq_false hneg, decide_eq_false (by omega)]
    · exact hnames

end Rounding

end MetricLayer.Decimal.Binary
