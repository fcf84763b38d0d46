import MetricLayer.Proofs.Json.DoubleTexts

/-!
# Numerals in range

Only a numeral that is too large is refused. The digits that are taken, up to 64 bits of them, make
a number that is no more than a tenth larger than the numeral, so every numeral up to `10 ^ 308`
is read.
-/

namespace MetricLayer.Json

open Decimal

open Float.Model in
theorem zero_mul_powerOfTen {exponent : Nat} (h : exponent ≤ 308) :
    Float.ofNat 0 * powerOfTen exponent = Float.ofNat 0 := by
  obtain ⟨value, hvalue, happroximates⟩ := exists_powerOfTen h
  have hform : Binary.ofFloat? (Float.ofNat 0) = some ⟨false, 0, -1074⟩ := by decide +kernel
  have hzero : (Float.ofNat 0).toModel.unpack = .zero .positive :=
    (Binary.unpack_of_ofFloat? hform).trans (dif_pos rfl)
  have hproduct : Float.ofModel (Float.Model.pack (.zero .positive)) = Float.ofNat 0 := by
    decide +kernel
  change Float.ofModel (Float.Model.pack (UnpackedFloat.mul Format.binary64
    (Float.ofNat 0).toModel.unpack (powerOfTen exponent).toModel.unpack)) = _
  rw [hzero, Binary.unpack_of_ofFloat? hvalue, happroximates.unpacked_eq]
  exact hproduct

theorem exists_scale?_zero (exponent : Int) : ∃ y, scale? 4 (Float.ofNat 0) exponent = some y := by
  have hzero : (Float.ofNat 0 == 0.0) = true := by decide +kernel
  have hfinite : Decimal.isFinite (Float.ofNat 0) = true := by decide +kernel
  by_cases hneg : exponent < 0
  · have hnumber : (Float.ofNat 0).isNaN = false := by decide +kernel
    obtain ⟨y, hy, _⟩ := exists_scale?_of_neg hnumber hneg 4
    exact ⟨y, hy⟩
  · rw [scale?]
    by_cases hsmall : exponent.natAbs ≤ 308
    · rw [if_pos hsmall, if_pos (by omega), zero_mul_powerOfTen hsmall]
      exact ⟨_, if_pos hfinite⟩
    · exact ⟨_, (if_neg hsmall).trans (if_pos hzero)⟩

theorem digitValue_le {c : Char} (h : c.isDigit = true) : digitValue c ≤ 9 := by
  have hle := (Char.isDigit_iff_toNat.mp h).2
  have hnine : '9'.toNat = '0'.toNat + 9 := rfl
  rw [digitValue]
  omega

theorem digitsValue_lt {digits : List Char} (h : ∀ c ∈ digits, c.isDigit = true) :
    digitsValue digits < tenTo digits.length := by
  induction digits with
  | nil => decide
  | cons c digits ih =>
      have hrest := ih fun d hd => h d (List.mem_cons_of_mem c hd)
      have hten : tenTo (c :: digits).length = tenTo digits.length * 10 := pow_succ 10 _
      have hle := Nat.mul_le_mul_left (tenTo digits.length)
        (digitValue_le (h c List.mem_cons_self))
      rw [digitsValue_cons, hten]
      omega

/-- Digits are appended while the number fits 64 bits. Those left over are dropped. -/
structure Absorbs (start : Nat) (digits : List Char) (taken : Nat) (left : List Char) : Prop where
  length_le : left.length ≤ digits.length
  value_eq : tenTo left.length * taken + digitsValue left =
    tenTo digits.length * start + digitsValue digits
  taken_lt : taken < twoTo 64
  full : left ≠ [] → twoTo 64 ≤ taken * 10 + 9

theorem absorbs {start : Nat} {digits : List Char} (hstart : start < twoTo 64)
    (h : ∀ c ∈ digits, c.isDigit = true) :
    Absorbs start digits (absorb start digits).1 (absorb start digits).2 := by
  induction digits generalizing start with
  | nil => exact ⟨le_rfl, rfl, hstart, fun hne => absurd rfl hne⟩
  | cons c digits ih =>
      by_cases hfits : start * 10 + digitValue c < twoTo 64
      · have hrest := ih hfits fun d hd => h d (List.mem_cons_of_mem c hd)
        rw [absorb, if_pos hfits]
        refine ⟨hrest.length_le.trans (Nat.le_succ _), ?_, hrest.taken_lt, hrest.full⟩
        rw [hrest.value_eq, Numeral.digitsValue_append_cons]
      · have hdigit := digitValue_le (h c List.mem_cons_self)
        rw [absorb, if_neg hfits]
        exact ⟨le_rfl, rfl, hstart, fun _ => by omega⟩

section Taken

variable {whole fraction wholeLeft fractionLeft : List Char} {leading significand : Nat}

/-- With the zeros for the dropped digits, what is taken is larger by a tenth at most. -/
theorem taken_le (hwhole : Absorbs 0 whole leading wholeLeft)
    (hfraction : Absorbs leading fraction significand fractionLeft)
    (hdigits : ∀ c ∈ fraction, c.isDigit = true) :
    10 * (tenTo fractionLeft.length * significand * tenTo wholeLeft.length) ≤
      11 * (tenTo fraction.length * digitsValue whole + digitsValue fraction) := by
  have hvalue := hwhole.value_eq
  have hvalue' := hfraction.value_eq
  have hlt := digitsValue_lt hdigits
  rw [Nat.mul_zero, Nat.zero_add] at hvalue
  by_cases hleft : wholeLeft = []
  · subst hleft
    have hone : tenTo ([] : List Char).length = 1 := rfl
    have hnone : digitsValue [] = 0 := rfl
    rw [hone, Nat.one_mul, hnone, Nat.add_zero] at hvalue
    rw [hone, Nat.mul_one, ← hvalue]
    omega
  · have hfull := hwhole.full hleft
    have hsixtyFour : twoTo 64 = 18446744073709551616 := rfl
    have hten : 10 ≤ leading := by omega
    have htaken : tenTo fractionLeft.length * significand ≤
        tenTo fraction.length * (leading + 1) := by
      rw [Nat.mul_add, Nat.mul_one]
      omega
    have hunit : 10 * (leading + 1) * tenTo wholeLeft.length ≤ 11 * digitsValue whole := by
      calc 10 * (leading + 1) * tenTo wholeLeft.length
          ≤ 11 * leading * tenTo wholeLeft.length := Nat.mul_le_mul_right _ (by omega)
        _ = 11 * (tenTo wholeLeft.length * leading) := by ring
        _ ≤ 11 * digitsValue whole := by omega
    calc 10 * (tenTo fractionLeft.length * significand * tenTo wholeLeft.length)
        ≤ 10 * (tenTo fraction.length * (leading + 1) * tenTo wholeLeft.length) := by gcongr
      _ = tenTo fraction.length * (10 * (leading + 1) * tenTo wholeLeft.length) := by ring
      _ ≤ tenTo fraction.length * (11 * digitsValue whole) := by gcongr
      _ ≤ 11 * (tenTo fraction.length * digitsValue whole + digitsValue fraction) := by
          rw [Nat.mul_left_comm]
          omega

end Taken

theorem twelve_mul_le_overflow : (12 : ℚ) * 10 ^ 307 ≤ Binary.overflow := by
  have hnat : 12 * 10 ^ 307 + 2 ^ 970 ≤ 2 ^ 1024 := by decide +kernel
  have hcast : ((12 * 10 ^ 307 + 2 ^ 970 : ℕ) : ℚ) ≤ (2 ^ 1024 : ℕ) := Nat.cast_le.mpr hnat
  rw [Nat.cast_add, Nat.cast_mul, Nat.cast_pow, Nat.cast_pow, Nat.cast_pow, Nat.cast_ofNat,
    Nat.cast_ofNat, Nat.cast_ofNat] at hcast
  exact le_sub_iff_add_le.mpr hcast

/-- Scaling is within the range if the exact product is well within it. -/
theorem exists_scale?_of_le {significand : Nat} {exponent : Int} (hlt : significand < twoTo 64)
    (hsize : (significand : ℚ) * 10 ^ exponent ≤ 11 * 10 ^ 307) :
    ∃ y, scale? 4 (Float.ofNat significand) exponent = some y := by
  rcases Nat.eq_zero_or_pos significand with rfl | hpos
  · exact exists_scale?_zero exponent
  by_cases hneg : exponent < 0
  · obtain ⟨value, hvalue, _⟩ := exists_ofNat hpos hlt
    obtain ⟨y, hy, _⟩ := exists_scale?_of_neg (Binary.isNaN_of_ofFloat? hvalue) hneg 4
    exact ⟨y, hy⟩
  · obtain ⟨power, rfl⟩ : ∃ power : ℕ, exponent = power := ⟨exponent.toNat, by omega⟩
    rw [zpow_natCast] at hsize
    have hone : (1 : ℚ) ≤ significand := by exact_mod_cast hpos
    have hunit : (0 : ℚ) < 10 ^ 307 := by positivity
    have hpower : power ≤ 308 := by
      by_contra hlarge
      have hten : (10 : ℚ) ^ 309 ≤ 10 ^ power := pow_le_pow_right₀ (by norm_num) (by omega)
      have hle : (10 : ℚ) ^ power ≤ significand * 10 ^ power :=
        le_mul_of_one_le_left (by positivity) hone
      have hsplit : (10 : ℚ) ^ 309 = 10 ^ 307 * 10 * 10 := by rw [← pow_succ, ← pow_succ]
      rw [hsplit] at hten
      generalize (10 : ℚ) ^ 307 = unit at *
      linarith
    have hfits : (significand : ℚ) * 10 ^ power * 9007199254740992 ^ 2 <
        Binary.overflow * 9007199254740991 ^ 2 :=
      calc (significand : ℚ) * 10 ^ power * 9007199254740992 ^ 2
          ≤ 11 * 10 ^ 307 * 9007199254740992 ^ 2 := by gcongr
        _ < 12 * 10 ^ 307 * 9007199254740991 ^ 2 := by
            generalize (10 : ℚ) ^ 307 = unit at hunit
            linarith
        _ ≤ Binary.overflow * 9007199254740991 ^ 2 := by
            gcongr
            exact twelve_mul_le_overflow
    obtain ⟨y, hy, _⟩ := exists_scale?_of_lt hpos hlt hpower hfits 3
    exact ⟨y, hy⟩

namespace Numeral

variable {numeral : Numeral}

/-- What is taken is in range, whatever is left over. -/
theorem exists_scale?_of_absorbs {wholeLeft fractionLeft : List Char} {leading significand : Nat}
    (hwhole : Absorbs 0 numeral.whole leading wholeLeft)
    (hfraction : Absorbs leading (numeral.fraction.getD []) significand fractionLeft)
    (hdigits : ∀ c ∈ numeral.fraction.getD [], c.isDigit = true)
    (hsize : (numeral.coefficient : ℚ) * 10 ^ numeral.power ≤ 10 ^ 308) :
    ∃ y, scale? 4 (Float.ofNat significand)
      (numeral.power + (fractionLeft.length + wholeLeft.length : ℕ)) = some y := by
  have htaken := taken_le hwhole hfraction hdigits
  have hcoefficient : numeral.coefficient = tenTo (numeral.fraction.getD []).length *
      digitsValue numeral.whole + digitsValue (numeral.fraction.getD []) := digitsValue_append _ _
  rw [← hcoefficient] at htaken
  have hcast : ((10 * (tenTo fractionLeft.length * significand * tenTo wholeLeft.length) : ℕ) : ℚ) ≤
      (11 * numeral.coefficient : ℕ) := Nat.cast_le.mpr htaken
  simp only [tenTo_eq_pow, Nat.cast_mul, Nat.cast_pow, Nat.cast_ofNat] at hcast
  have hpower : (0 : ℚ) < 10 ^ numeral.power := by positivity
  refine exists_scale?_of_le hfraction.taken_lt ?_
  rw [zpow_add₀ (by norm_num), zpow_natCast, pow_add]
  calc (significand : ℚ) * (10 ^ numeral.power * (10 ^ fractionLeft.length * 10 ^ wholeLeft.length))
      = 10 * (10 ^ fractionLeft.length * significand * 10 ^ wholeLeft.length) *
          10 ^ numeral.power / 10 := by ring
    _ ≤ 11 * numeral.coefficient * 10 ^ numeral.power / 10 := by gcongr
    _ = 11 * (numeral.coefficient * 10 ^ numeral.power) / 10 := by ring
    _ ≤ 11 * 10 ^ 308 / 10 := by gcongr
    _ = 11 * 10 ^ 307 := by
        rw [pow_succ (10 : ℚ) 307]
        generalize (10 : ℚ) ^ 307 = unit
        ring

theorem exists_float? (h : numeral.WellFormed)
    (hexponent : ∀ entry ∈ numeral.exponent, digitsValue entry.2 < twoTo 31)
    (hsize : (numeral.coefficient : ℚ) * 10 ^ numeral.power ≤ 10 ^ 308) :
    ∃ x, numeral.float? = some x := by
  have hdigits : ∀ c ∈ numeral.fraction.getD [], c.isDigit = true := by
    intro c hc
    cases hfraction : numeral.fraction with
    | none =>
        rw [hfraction] at hc
        cases hc
    | some digits =>
        rw [hfraction] at hc
        exact (h.fraction digits hfraction).isDigit c hc
  have hwhole := absorbs (twoTo_pos 64) h.whole.isDigit
  have hfraction := absorbs hwhole.taken_lt hdigits
  obtain ⟨y, hy⟩ := exists_scale?_of_absorbs hwhole hfraction hdigits hsize
  have hlength := hfraction.length_le
  unfold float?
  dsimp only
  generalize absorb 0 numeral.whole = first at *
  generalize absorb first.1 (numeral.fraction.getD []) = second at *
  have hshift : numeral.power + (second.2.length + first.2.length : ℕ) =
      (first.2.length - ((numeral.fraction.getD []).length - second.2.length : ℕ) : Int) +
        (numeral.power + (numeral.fraction.getD []).length) := by
    omega
  rw [hshift, power, Int.sub_add_cancel] at hy
  cases hentry : numeral.exponent with
  | none =>
      rw [hentry] at hy
      dsimp only at hy ⊢
      rw [Int.add_zero] at hy
      exact ⟨_, by rw [hy]; rfl⟩
  | some entry =>
      obtain ⟨down, digits⟩ := entry
      have hsmall : ¬ twoTo 31 ≤ digitsValue digits := not_le.mpr (hexponent _ hentry)
      rw [hentry] at hy
      dsimp only at hy ⊢
      rw [if_neg hsmall]
      cases down with
      | false => exact ⟨_, by rw [if_neg Bool.false_ne_true]; exact congrArg _ hy⟩
      | true => exact ⟨_, by rw [if_pos rfl]; exact congrArg _ hy⟩

theorem isSome_value? (h : numeral.WellFormed)
    (hexponent : ∀ entry ∈ numeral.exponent, digitsValue entry.2 < twoTo 31)
    (hsize : (numeral.coefficient : ℚ) * 10 ^ numeral.power ≤ 10 ^ 308) :
    numeral.value?.isSome := by
  rcases value?_cases h with ⟨n, _, hvalue⟩ | ⟨_, hvalue⟩
  · rw [hvalue]
    rfl
  · obtain ⟨x, hx⟩ := exists_float? h hexponent hsize
    rw [hvalue, hx]
    rfl

end Numeral

end MetricLayer.Json
