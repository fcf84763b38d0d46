import MetricLayer.Proofs.Decimal.Doubles

/-!
# Doubles and their unpacked form

The arithmetic and the order of doubles are those of their unpacked form, a sign with a significand
and an exponent. The exact value of a finite double gives that form, and comparing two of them
compares the numbers that they stand for.
-/

namespace MetricLayer.Decimal

open Float.Model Float.Model.UnpackedFloat

theorem toNat_unpackMantissa (bits : BitVec Format.binary64.numBits) :
    (unpackMantissa bits).toNat = bits.toNat % 4503599627370496 := by
  rw [unpackMantissa, BitVec.toNat_cast, BitVec.extractLsb_toNat, Nat.shiftRight_zero]
  rfl

theorem toNat_unpackExponent (bits : BitVec Format.binary64.numBits) :
    (unpackExponent bits).toNat = bits.toNat / 4503599627370496 % 2048 := by
  rw [unpackExponent, BitVec.toNat_cast, BitVec.extractLsb_toNat, Nat.shiftRight_eq_div_pow]
  rfl

theorem toNat_unpackSign (bits : BitVec Format.binary64.numBits) :
    (unpackSign bits).toNat = bits.toNat / 9223372036854775808 := by
  have hlt : bits.toNat < 18446744073709551616 := bits.isLt
  have hmod : (unpackSign bits).toNat = bits.toNat / 9223372036854775808 % 2 := by
    rw [unpackSign, BitVec.toNat_cast, BitVec.extractLsb_toNat, Nat.shiftRight_eq_div_pow]
    rfl
  omega

def sign (negative : Bool) : Sign := if negative then .negative else .positive

theorem ofBitVec_unpackSign (bits : BitVec Format.binary64.numBits) :
    Sign.ofBitVec (unpackSign bits) = sign (bits.toNat / 9223372036854775808 == 1) := by
  have hbit := toNat_unpackSign bits
  have hlt : bits.toNat < 18446744073709551616 := bits.isLt
  rw [Sign.ofBitVec, ← hbit]
  by_cases hzero : unpackSign bits = 0#1
  · rw [if_pos hzero, hzero]
    rfl
  · have hone : (unpackSign bits).toNat = 1 := by
      have hne : (unpackSign bits).toNat ≠ 0 := fun h => hzero (BitVec.eq_of_toNat_eq h)
      omega
    rw [if_neg hzero, hone]
    rfl

namespace Binary

def unpacked (value : Binary) : UnpackedFloat :=
  if h : value.significand = 0 then .zero (sign value.negative)
  else .finite (sign value.negative) value.significand value.exponent (Nat.pos_of_ne_zero h)

theorem unpack_of_ofFloat? {x : Float} {value : Binary} (h : ofFloat? x = some value) :
    x.toModel.unpack = value.unpacked := by
  obtain ⟨bits, hbits, hunpack⟩ : ∃ bits : BitVec Format.binary64.numBits,
      x.toBits.toNat = bits.toNat ∧
        x.toModel.unpack = UnpackedFloat.unpack Format.binary64 bits :=
    ⟨x.toModel.toBits.toBitVec, rfl, rfl⟩
  have hmantissa := toNat_unpackMantissa bits
  have hexponent := toNat_unpackExponent bits
  have h63 : twoTo 63 = 9223372036854775808 := rfl
  have h11 : twoTo 11 = 2048 := rfl
  unfold ofFloat? at h
  dsimp only at h
  rw [h63, h11, twoTo_52, hbits] at h
  rw [hunpack, UnpackedFloat.unpack]
  dsimp only
  rw [ofBitVec_unpackSign]
  split at h
  · cases h
  · rename_i hfinite
    have hall : unpackExponent bits ≠ -1#_ := by
      intro hall
      rw [hall] at hexponent
      exact hfinite hexponent.symm
    rw [if_neg hall]
    split at h
    · rename_i hleast
      have hzero : unpackExponent bits = 0#_ := BitVec.eq_of_toNat_eq (hexponent.trans hleast)
      obtain rfl := Option.some.inj h
      rw [if_pos hzero, unpacked]
      dsimp only
      by_cases hfraction : unpackMantissa bits = 0#_
      · have hnone : bits.toNat % 4503599627370496 = 0 := by
          rw [← hmantissa, hfraction]
          rfl
        rw [dif_pos hfraction, dif_pos hnone]
      · have hsome : bits.toNat % 4503599627370496 ≠ 0 := by
          rw [← hmantissa]
          exact fun hnone => hfraction (BitVec.eq_of_toNat_eq hnone)
        rw [dif_neg hfraction, dif_neg hsome]
        congr 1
        rw [hzero]
        rfl
    · rename_i hleast
      have hpositive : unpackExponent bits ≠ 0#_ := by
        intro hzero
        rw [hzero] at hexponent
        exact hleast hexponent.symm
      obtain rfl := Option.some.inj h
      rw [if_neg hpositive, unpacked]
      dsimp only
      rw [dif_neg (by omega)]
      congr 1
      · have hlt : bits.toNat % 4503599627370496 < 2 ^ 52 := Nat.mod_lt _ (by decide)
        have hleading : (1#1).toNat <<< 52 = 4503599627370496 := rfl
        rw [BitVec.toNat_append, hmantissa, ← Nat.shiftLeft_add_eq_or_of_lt hlt, hleading,
          Nat.add_comm]
      · rw [hexponent]
        change _ - (((1023 : Nat) : Int) + ((52 : Nat) : Int)) = _
        omega

theorem unpack_of_not_finite {x : Float} (h : ofFloat? x = none) :
    (∃ sign, x.toModel.unpack = .infinity sign) ∨ x.toModel.unpack = .notANumber := by
  obtain ⟨bits, hbits, hunpack⟩ : ∃ bits : BitVec Format.binary64.numBits,
      x.toBits.toNat = bits.toNat ∧
        x.toModel.unpack = UnpackedFloat.unpack Format.binary64 bits :=
    ⟨x.toModel.toBits.toBitVec, rfl, rfl⟩
  have hexponent := toNat_unpackExponent bits
  have h11 : twoTo 11 = 2048 := rfl
  unfold ofFloat? at h
  dsimp only at h
  rw [h11, twoTo_52, hbits] at h
  have hall : unpackExponent bits = -1#_ := by
    refine BitVec.eq_of_toNat_eq (hexponent.trans ?_)
    split at h
    · assumption
    · split at h <;> cases h
  rw [hunpack, UnpackedFloat.unpack]
  dsimp only
  rw [if_pos hall]
  split
  · exact .inl ⟨_, rfl⟩
  · exact .inr rfl

/-- The form of a double that is packed from its fields. -/
theorem ofFloat?_of_components {x : Float} {negative : Bool}
    {exponent : BitVec Format.binary64.exponentBits}
    {mantissa : BitVec Format.binary64.mantissaBitsWithoutImplicit}
    (h : x.toModel.toBits.toBitVec =
      packComponents Format.binary64 (sign negative) exponent mantissa) :
    ofFloat? x =
      if exponent.toNat = 2047 then none
      else if exponent.toNat = 0 then some ⟨negative, mantissa.toNat, -1074⟩
      else some ⟨negative, mantissa.toNat + twoTo 52, (exponent.toNat : Int) - 1075⟩ := by
  obtain ⟨bits, hbits, hpack⟩ : ∃ bits : BitVec Format.binary64.numBits,
      x.toBits.toNat = bits.toNat ∧
        bits = packComponents Format.binary64 (sign negative) exponent mantissa :=
    ⟨x.toModel.toBits.toBitVec, rfl, h⟩
  have hmantissa := toNat_unpackMantissa bits
  have hexponent := toNat_unpackExponent bits
  have hsign := toNat_unpackSign bits
  rw [hpack, unpackMantissa_packComponents, ← hpack] at hmantissa
  rw [hpack, unpackExponent_packComponents, ← hpack] at hexponent
  rw [hpack, unpackSign_packComponents, ← hpack] at hsign
  have hnegative : (bits.toNat / 9223372036854775808 == 1) = negative := by
    rw [← hsign]
    cases negative <;> rfl
  have h63 : twoTo 63 = 9223372036854775808 := rfl
  have h11 : twoTo 11 = 2048 := rfl
  unfold ofFloat?
  dsimp only
  rw [h63, h11, twoTo_52, hbits, hnegative, ← hmantissa, ← hexponent]

theorem ofFloat?_pack {value : Binary} (hnormal : value.Normal)
    (hleading : twoTo 52 ≤ value.significand) (hexponent : value.exponent ≤ 971) :
    ofFloat? (Float.ofModel (Float.Model.pack value.unpacked)) = some value := by
  have hlt := hnormal.significand_lt
  have hge := hnormal.exponent_ge
  rw [twoTo_53] at hlt
  rw [twoTo_52] at hleading
  have hlog : value.significand.log2 = 52 := (Nat.log2_eq_iff (by omega)).mpr ⟨hleading, hlt⟩
  have hbias : (value.exponent + ((Format.binary64.exponentBias : Nat) : Int) +
      ((Format.binary64.mantissaBitsWithoutImplicit : Nat) : Int)).toNat =
      (value.exponent + 1075).toNat := by
    have hbias : ((Format.binary64.exponentBias : Nat) : Int) = 1023 := rfl
    have hbits : ((Format.binary64.mantissaBitsWithoutImplicit : Nat) : Int) = 52 := rfl
    rw [hbias, hbits]
    omega
  have hpack : (Float.ofModel (Float.Model.pack value.unpacked)).toModel.toBits.toBitVec =
      packComponents Format.binary64 (sign value.negative)
        (BitVec.ofNat _ (value.exponent + 1075).toNat) (BitVec.ofNat _ value.significand) := by
    change UnpackedFloat.pack Format.binary64 value.unpacked = _
    rw [unpacked, dif_neg (by omega), UnpackedFloat.pack]
    dsimp only
    have hroom : ¬ 2 ^ Format.binary64.exponentBits ≤ (value.exponent + 1075).toNat + 1 := by
      change ¬ 2048 ≤ _
      omega
    have hfull : 52 + 1 = Format.binary64.mantissaBits := rfl
    rw [hbias, hlog, if_neg hroom, if_pos hfull]
  have hfraction : (BitVec.ofNat Format.binary64.mantissaBitsWithoutImplicit
      value.significand).toNat = value.significand - 4503599627370496 := by
    change value.significand % 4503599627370496 = _
    omega
  have hbiased : (BitVec.ofNat Format.binary64.exponentBits
      (value.exponent + 1075).toNat).toNat = (value.exponent + 1075).toNat := by
    change (value.exponent + 1075).toNat % 2048 = _
    omega
  rw [ofFloat?_of_components hpack, hfraction, hbiased, if_neg (by omega), if_neg (by omega),
    twoTo_52]
  have hsignificand : value.significand - 4503599627370496 + 4503599627370496 =
      value.significand := by
    omega
  have hexponent_eq : ((value.exponent + 1075).toNat : Int) - 1075 = value.exponent := by omega
  rw [hsignificand, hexponent_eq]

variable {first second : Binary}

theorem compare_neg (p q : ℚ) : compare (-p) (-q) = (compare p q).swap := by
  rcases lt_trichotomy p q with hlt | rfl | hgt
  · rw [compare_lt_iff_lt.mpr hlt, compare_gt_iff_gt.mpr (neg_lt_neg hlt)]
    rfl
  · rw [compare_eq_iff_eq.mpr rfl, compare_eq_iff_eq.mpr rfl]
    rfl
  · rw [compare_gt_iff_gt.mpr hgt, compare_lt_iff_lt.mpr (neg_lt_neg hgt)]
    rfl

/-- Normal forms are ordered like the magnitudes that they stand for. -/
theorem compare_magnitude (hfirst : first.Normal) (hsecond : second.Normal) :
    (compare first.exponent second.exponent).then
      (compare first.significand second.significand) =
      compare first.magnitude second.magnitude := by
  rcases lt_trichotomy first.exponent second.exponent with hexponent | hexponent | hexponent
  · have hbelow : first.Below second := .inl hexponent
    rw [compare_lt_iff_lt.mpr hexponent, compare_lt_iff_lt.mpr (hbelow.magnitude_lt hfirst hsecond)]
    rfl
  · rw [compare_eq_iff_eq.mpr hexponent]
    change compare first.significand second.significand = _
    rcases lt_trichotomy first.significand second.significand with hlt | heq | hgt
    · have hbelow : first.Below second := .inr ⟨hexponent, hlt⟩
      rw [compare_lt_iff_lt.mpr hlt, compare_lt_iff_lt.mpr (hbelow.magnitude_lt hfirst hsecond)]
    · have hmagnitude : first.magnitude = second.magnitude := by
        rw [magnitude, magnitude, hexponent, heq]
      rw [compare_eq_iff_eq.mpr heq, compare_eq_iff_eq.mpr hmagnitude]
    · have hbelow : second.Below first := .inr ⟨hexponent.symm, hgt⟩
      rw [compare_gt_iff_gt.mpr hgt, compare_gt_iff_gt.mpr (hbelow.magnitude_lt hsecond hfirst)]
  · have hbelow : second.Below first := .inl hexponent
    rw [compare_gt_iff_gt.mpr hexponent, compare_gt_iff_gt.mpr (hbelow.magnitude_lt hsecond hfirst)]
    rfl

theorem compare_unpacked (hfirst : first.Normal) (hsecond : second.Normal) :
    first.unpacked.compare second.unpacked = some (compare first.toRat second.toRat) := by
  have hmagnitude := compare_magnitude hfirst hsecond
  have hfirst_nonneg := first.magnitude_nonneg
  have hsecond_nonneg := second.magnitude_nonneg
  unfold unpacked toRat
  by_cases hzero : first.significand = 0
  · have hfirst_zero : first.magnitude = 0 := by rw [magnitude, hzero, Nat.cast_zero, zero_mul]
    rw [dif_pos hzero, hfirst_zero, neg_zero, ite_self]
    by_cases hzero' : second.significand = 0
    · have hsecond_zero : second.magnitude = 0 := by
        rw [magnitude, hzero', Nat.cast_zero, zero_mul]
      rw [dif_pos hzero', hsecond_zero, neg_zero, ite_self, compare_eq_iff_eq.mpr rfl]
      rfl
    · have hpos := magnitude_pos hzero'
      rw [dif_neg hzero']
      cases second.negative
      · exact congrArg some (compare_lt_iff_lt.mpr hpos).symm
      · exact congrArg some (compare_gt_iff_gt.mpr (neg_neg_of_pos hpos)).symm
  · have hpos := magnitude_pos hzero
    rw [dif_neg hzero]
    by_cases hzero' : second.significand = 0
    · have hsecond_zero : second.magnitude = 0 := by
        rw [magnitude, hzero', Nat.cast_zero, zero_mul]
      rw [dif_pos hzero', hsecond_zero, neg_zero, ite_self]
      cases first.negative
      · exact congrArg some (compare_gt_iff_gt.mpr hpos).symm
      · exact congrArg some (compare_lt_iff_lt.mpr (neg_neg_of_pos hpos)).symm
    · have hpos' := magnitude_pos hzero'
      rw [dif_neg hzero']
      cases first.negative <;> cases second.negative
      · exact congrArg some hmagnitude
      · exact congrArg some (compare_gt_iff_gt.mpr ((neg_neg_of_pos hpos').trans hpos)).symm
      · exact congrArg some (compare_lt_iff_lt.mpr ((neg_neg_of_pos hpos).trans hpos')).symm
      · exact congrArg some ((congrArg Ordering.swap hmagnitude).trans (compare_neg _ _).symm)

end Binary

end MetricLayer.Decimal
