import MetricLayer.Decimal.Rounding
import MetricLayer.Proofs.Decimal.Digits
import MetricLayer.Proofs.Decimal.Doubles
import Mathlib.Algebra.Order.Round
import Mathlib.Algebra.Ring.Int.Parity

/-!
# Fixed places

A number at fixed places is the nearest multiple of the last place, an even one if two are equally
near. It is written with its whole digits and exactly as many digits behind the point, and the
digits read as one number count the units of the last place.
-/

namespace MetricLayer.Decimal

/-- No other whole number is nearer, and one that is as near leaves this one to be even. -/
structure NearestEven (number : ℚ) (whole : ℤ) : Prop where
  near : ∀ other : ℤ, |number - whole| ≤ |number - other|
  even : ∀ other : ℤ, other ≠ whole → |number - other| = |number - whole| → Even whole

section Rounding

variable {number : ℚ} {whole : ℤ} {numerator denominator : Nat}

theorem half_le_of_ne {other : ℤ} (h : |number - whole| ≤ 1 / 2) (hne : other ≠ whole) :
    1 / 2 ≤ |number - other| := by
  have hone : (1 : ℚ) ≤ |(other : ℚ) - whole| := by
    exact_mod_cast Int.one_le_abs (sub_ne_zero.mpr hne)
  have hsplit : |(other : ℚ) - whole| ≤ |number - whole| + |number - other| := by
    calc |(other : ℚ) - whole| = |(number - whole) - (number - other)| := by congr 1; ring
      _ ≤ |number - whole| + |number - other| := abs_sub _ _
  linarith

theorem nearestEven_of_le_half (hnear : |number - whole| ≤ 1 / 2)
    (heven : |number - whole| = 1 / 2 → Even whole) : NearestEven number whole where
  near := by
    intro other
    by_cases hother : other = whole
    · rw [hother]
    · exact hnear.trans (half_le_of_ne hnear hother)
  even := by
    intro other hother htie
    exact heven (le_antisymm hnear (htie ▸ half_le_of_ne hnear hother))

theorem NearestEven.neg (h : NearestEven number whole) : NearestEven (-number) (-whole) := by
  have hflip : ∀ other : ℤ, |-number - other| = |number - (-other : ℤ)| := by
    intro other
    rw [← abs_neg, Int.cast_neg]
    congr 1
    ring
  constructor
  · intro other
    rw [hflip, hflip, neg_neg]
    exact h.near (-other)
  · intro other hother htie
    rw [hflip, hflip, neg_neg] at htie
    exact (h.even (-other) (fun heq => hother (by rw [← heq, neg_neg])) htie).neg

/-- Two numbers could only be even neighbors of the one in the middle, which is nearer. -/
theorem NearestEven.unique {other : ℤ} (h : NearestEven number whole)
    (h' : NearestEven number other) : whole = other := by
  by_contra hne
  have htie : |number - other| = |number - whole| := le_antisymm (h'.near whole) (h.near other)
  obtain ⟨half, rfl⟩ := h.even other (Ne.symm hne) htie
  obtain ⟨half', rfl⟩ := h'.even _ hne htie.symm
  have hmiddle : number - (half + half' : ℤ) = 0 := by
    rcases abs_eq_abs.mp htie with heq | heq
    · exact absurd (by exact_mod_cast (sub_right_inj.mp heq).symm) hne
    · push_cast at heq ⊢
      linarith
  have hexact : number - (half + half : ℤ) = 0 := by
    have hnear := h.near (half + half')
    rw [hmiddle, abs_zero] at hnear
    exact abs_nonpos_iff.mp hnear
  refine hne ?_
  have hsum : ((half + half' : ℤ) : ℚ) = (half + half : ℤ) := by linarith
  have hwhole : half + half' = half + half := by exact_mod_cast hsum
  omega

/-- A quotient is rounded to the nearest whole number. -/
theorem nearestEven_roundDiv (h : 0 < denominator) :
    NearestEven (numerator / denominator) (roundDiv .toEven numerator denominator) := by
  have hpos : (0 : ℚ) < denominator := by exact_mod_cast h
  have hupper := two_mul_roundDiv_le .toEven numerator h
  have hlower := le_two_mul_roundDiv .toEven numerator h
  have hodd := @two_mul_ne_of_roundDiv_odd numerator denominator h
  generalize roundDiv .toEven numerator denominator = whole at *
  have hdistance : |(numerator / denominator : ℚ) - (whole : ℤ)| =
      |(numerator : ℚ) - denominator * whole| / denominator := by
    rw [← abs_of_pos hpos, ← abs_div, abs_of_pos hpos]
    congr 1
    field_simp
    push_cast
    ring
  have hupper_cast : (2 : ℚ) * (denominator * whole) ≤ 2 * numerator + denominator := by
    exact_mod_cast hupper
  have hlower_cast : (2 : ℚ) * numerator ≤ 2 * (denominator * whole) + denominator := by
    exact_mod_cast hlower
  apply nearestEven_of_le_half
  · rw [hdistance, div_le_iff₀ hpos, abs_le]
    constructor <;> linarith
  · intro htie
    rw [hdistance, div_eq_iff hpos.ne'] at htie
    by_contra hnot
    have hmod : whole % 2 = 1 := Nat.not_even_iff.mp fun heven => hnot (by exact_mod_cast heven)
    obtain ⟨hne_upper, hne_lower⟩ := hodd hmod
    rcases abs_cases ((numerator : ℚ) - denominator * whole) with ⟨habs, -⟩ | ⟨habs, -⟩
    · refine hne_lower ?_
      have hcast : (2 : ℚ) * numerator = 2 * (denominator * whole) + denominator := by linarith
      exact_mod_cast hcast
    · refine hne_upper ?_
      have hcast : (2 : ℚ) * (denominator * whole) = 2 * numerator + denominator := by linarith
      exact_mod_cast hcast

end Rounding

namespace Binary

/-- The number in units of `10 ^ -places`, rounded. -/
def rounded (value : Binary) (places : Nat) : ℤ :=
  if value.negative then -(value.scaled places : ℤ) else value.scaled places

theorem nearestEven_scaled (value : Binary) (places : Nat) :
    NearestEven (value.magnitude * 10 ^ places) (value.scaled places) := by
  have hquotient : value.magnitude * 10 ^ places =
      ((value.numerator * tenTo places : ℕ) : ℚ) / value.denominator := by
    rw [← numerator_div_denominator, tenTo_eq_pow, Nat.cast_mul, Nat.cast_pow, Nat.cast_ofNat,
      div_mul_eq_mul_div]
  rw [hquotient]
  exact nearestEven_roundDiv value.denominator_pos

theorem nearestEven_rounded (value : Binary) (places : Nat) :
    NearestEven (value.toRat * 10 ^ places) (value.rounded places) := by
  have hscaled := value.nearestEven_scaled places
  rw [toRat, rounded]
  cases value.negative with
  | true =>
      rw [if_pos rfl, if_pos rfl, neg_mul]
      exact hscaled.neg
  | false =>
      rw [if_neg Bool.false_ne_true, if_neg Bool.false_ne_true]
      exact hscaled

theorem nearestEven_iff (value : Binary) (places : Nat) {whole : ℤ} :
    NearestEven (value.toRat * 10 ^ places) whole ↔ whole = value.rounded places :=
  ⟨fun h => h.unique (value.nearestEven_rounded places),
    fun h => h ▸ value.nearestEven_rounded places⟩

theorem natAbs_rounded (value : Binary) (places : Nat) :
    (value.rounded places).natAbs = value.scaled places := by
  unfold rounded
  split <;> omega

theorem scaled_of_significand_eq_zero {value : Binary} (h : value.significand = 0)
    (places : Nat) : value.scaled places = 0 := by
  have hzero : value.numerator = 0 := by rw [numerator, h, Nat.zero_mul]
  rw [scaled, hzero, Nat.zero_mul, roundDiv, Nat.zero_div, Nat.zero_mod]
  exact if_pos value.denominator_pos

theorem rounded_neg_iff (value : Binary) (places : Nat) :
    value.rounded places < 0 ↔ value.negative = true ∧ value.scaled places ≠ 0 := by
  unfold rounded
  cases value.negative with
  | true =>
      rw [if_pos rfl, eq_self_iff_true, true_and]
      omega
  | false =>
      rw [if_neg Bool.false_ne_true]
      exact iff_of_false (by omega) fun h => Bool.false_ne_true h.1

end Binary

/-- A decimal numeral without an exponent. -/
structure Numeral where
  negative : Bool
  whole : List Char
  fraction : List Char
deriving DecidableEq

namespace Numeral

def minus (negative : Bool) : List Char := if negative then ['-'] else []

/-- The point and the digits behind it, if there are any. -/
def pointed (fraction : List Char) : List Char :=
  if fraction.isEmpty then [] else '.' :: fraction

/-- Takes a minus off. -/
def splitMinus : List Char → Bool × List Char
  | '-' :: rest => (true, rest)
  | text => (false, text)

def fraction? : List Char → Option (List Char)
  | [] => some []
  | '.' :: fraction =>
      if fraction.isEmpty || !fraction.all Char.isDigit then none else some fraction
  | _ => none

/-- The digits on both sides of the point. -/
def unsigned (numeral : Numeral) : List Char := numeral.whole ++ pointed numeral.fraction

def text (numeral : Numeral) : List Char := minus numeral.negative ++ numeral.unsigned

/-- Reads digits, and perhaps a point with more digits. -/
def ofUnsigned? (negative : Bool) (text : List Char) : Option Numeral :=
  let whole := text.takeWhile Char.isDigit
  if whole.isEmpty then none
  else (fraction? (text.dropWhile Char.isDigit)).map fun fraction => ⟨negative, whole, fraction⟩

/-- The number that the numeral denotes. -/
def number (numeral : Numeral) : ℚ :=
  let magnitude : ℚ :=
    digitsValue (numeral.whole ++ numeral.fraction) / 10 ^ numeral.fraction.length
  if numeral.negative then -magnitude else magnitude

/-- There are digits on the left of the point, and nothing but digits on either side. -/
structure WellFormed (numeral : Numeral) : Prop where
  whole_ne_nil : numeral.whole ≠ []
  whole_digits : ∀ c ∈ numeral.whole, c.isDigit = true
  fraction_digits : ∀ c ∈ numeral.fraction, c.isDigit = true

variable {numeral : Numeral}

theorem splitMinus_minus {negative : Bool} {text : List Char}
    (h : ∀ c ∈ text.head?, c ≠ '-') : splitMinus (minus negative ++ text) = (negative, text) := by
  cases negative with
  | true => rfl
  | false =>
      rw [minus, if_neg Bool.false_ne_true, List.nil_append]
      unfold splitMinus
      split
      · exact absurd rfl (h '-' rfl)
      · rfl

theorem head?_minus {negative : Bool} {text : List Char} (h : ∀ c ∈ text.head?, c ≠ '-') :
    (minus negative ++ text).head? = some '-' ↔ negative = true := by
  cases negative with
  | true => exact iff_of_true rfl rfl
  | false => exact iff_of_false (fun hminus => h '-' hminus rfl) Bool.false_ne_true

theorem fraction?_pointed {fraction : List Char} (h : ∀ c ∈ fraction, c.isDigit = true) :
    fraction? (pointed fraction) = some fraction := by
  cases fraction with
  | nil => rfl
  | cons c rest =>
      have hall : (c :: rest).all Char.isDigit = true := List.all_eq_true.mpr h
      rw [pointed, List.isEmpty_cons, if_neg Bool.false_ne_true, fraction?, hall]
      rfl

theorem eq_point_of_mem_head?_pointed {fraction : List Char} {c : Char}
    (hc : c ∈ (pointed fraction).head?) : c = '.' := by
  unfold pointed at hc
  split at hc
  · cases hc
  · exact (Option.some.inj hc).symm

theorem head?_append_of_digits {whole : List Char} (hne : whole ≠ [])
    (hwhole : ∀ c ∈ whole, c.isDigit = true) (rest : List Char) :
    ∀ c ∈ (whole ++ rest).head?, c ≠ '-' := by
  obtain ⟨first, later, rfl⟩ := List.exists_cons_of_ne_nil hne
  rintro c hc rfl
  obtain rfl := Option.some.inj hc
  cases hwhole '-' List.mem_cons_self

theorem WellFormed.head?_unsigned (h : numeral.WellFormed) :
    ∀ c ∈ numeral.unsigned.head?, c ≠ '-' :=
  head?_append_of_digits h.whole_ne_nil h.whole_digits _

theorem WellFormed.ofUnsigned?_eq (h : numeral.WellFormed) :
    ofUnsigned? numeral.negative numeral.unsigned = some numeral := by
  have hstop : ∀ c ∈ (pointed numeral.fraction).head?, c.isDigit = false := by
    intro c hc
    rw [eq_point_of_mem_head?_pointed hc]
    rfl
  have hne : ¬numeral.whole.isEmpty = true := fun hempty =>
    h.whole_ne_nil (List.isEmpty_iff.mp hempty)
  rw [ofUnsigned?, unsigned, takeWhile_append_of_stop h.whole_digits hstop,
    dropWhile_append_of_stop h.whole_digits hstop, if_neg hne,
    fraction?_pointed h.fraction_digits]
  rfl

theorem number_eq_zero_iff :
    numeral.number = 0 ↔ digitsValue (numeral.whole ++ numeral.fraction) = 0 := by
  have hpos : (10 : ℚ) ^ numeral.fraction.length ≠ 0 := by positivity
  unfold number
  dsimp only
  split
  · rw [neg_eq_zero, div_eq_zero_iff, or_iff_left hpos, Nat.cast_eq_zero]
  · rw [div_eq_zero_iff, or_iff_left hpos, Nat.cast_eq_zero]

/-- Zeros at the end of the fraction do not count. -/
theorem number_append_zeros (negative : Bool) (whole fraction : List Char) (count : Nat) :
    number ⟨negative, whole, fraction ++ List.replicate count '0'⟩ =
      number ⟨negative, whole, fraction⟩ := by
  have hvalue : ((digitsValue (whole ++ (fraction ++ List.replicate count '0')) : ℕ) : ℚ) =
      10 ^ count * digitsValue (whole ++ fraction) := by
    rw [← List.append_assoc, digitsValue_append, digitsValue_zeros, List.length_replicate,
      tenTo_eq_pow, Nat.add_zero, Nat.cast_mul, Nat.cast_pow, Nat.cast_ofNat]
  have hmagnitude :
      (digitsValue (whole ++ (fraction ++ List.replicate count '0')) : ℚ) /
        10 ^ (fraction ++ List.replicate count '0').length =
      digitsValue (whole ++ fraction) / 10 ^ fraction.length := by
    have hpos : (10 : ℚ) ^ count ≠ 0 := by positivity
    rw [hvalue, List.length_append, List.length_replicate, pow_add, mul_comm _ ((10 : ℚ) ^ count),
      mul_div_mul_left _ _ hpos]
  unfold number
  dsimp only
  rw [hmagnitude]

end Numeral

def fractionDigits (units places : Nat) : List Char :=
  if places = 0 then []
  else
    let fraction := Nat.toDigits 10 (units % tenTo places)
    List.replicate (places - fraction.length) '0' ++ fraction

section Digits

variable (units places : Nat)

theorem placesText_eq : placesText units places =
    Nat.toDigits 10 (units / tenTo places) ++ Numeral.pointed (fractionDigits units places) := by
  unfold placesText fractionDigits
  dsimp only
  split
  · rw [Numeral.pointed, List.isEmpty_nil, if_pos rfl, List.append_nil]
  · have hne : ¬(List.replicate (places - (Nat.toDigits 10 (units % tenTo places)).length) '0' ++
        Nat.toDigits 10 (units % tenTo places)).isEmpty = true := by
      rw [List.isEmpty_iff, List.append_eq_nil_iff]
      exact fun h => Nat.toDigits_ne_nil h.2
    rw [Numeral.pointed, if_neg hne, List.append_assoc, List.cons_append]

theorem length_fractionDigits : (fractionDigits units places).length = places := by
  unfold fractionDigits
  split
  · rename_i hzero
    rw [hzero, List.length_nil]
  · rename_i hpos
    have hlt : units % tenTo places < 10 ^ places := Nat.mod_lt _ (tenTo_pos _)
    have hle := (Nat.length_toDigits_le_iff (by decide) (Nat.pos_of_ne_zero hpos)).mpr hlt
    rw [List.length_append, List.length_replicate, Nat.sub_add_cancel hle]

theorem isDigit_of_mem_fractionDigits {c : Char} (h : c ∈ fractionDigits units places) :
    c.isDigit = true := by
  unfold fractionDigits at h
  split at h
  · cases h
  · rcases List.mem_append.mp h with hzero | hdigit
    · obtain rfl := List.eq_of_mem_replicate hzero
      rfl
    · exact isDigit_of_mem_toDigits hdigit

theorem digitsValue_fractionDigits :
    digitsValue (fractionDigits units places) = units % tenTo places := by
  unfold fractionDigits
  split
  · rename_i hzero
    rw [hzero]
    exact (Nat.mod_one units).symm
  · rw [digitsValue_append, digitsValue_zeros, digitsValue_toDigits, Nat.mul_zero, Nat.zero_add]

/-- All digits in a row count the units. -/
theorem digitsValue_places : digitsValue
    (Nat.toDigits 10 (units / tenTo places) ++ fractionDigits units places) = units := by
  rw [digitsValue_append, length_fractionDigits, digitsValue_toDigits, digitsValue_fractionDigits]
  exact Nat.div_add_mod units (tenTo places)

def Numeral.ofUnits (negative : Bool) : Numeral :=
  ⟨negative, Nat.toDigits 10 (units / tenTo places), fractionDigits units places⟩

theorem Numeral.wellFormed_ofUnits (negative : Bool) :
    (Numeral.ofUnits units places negative).WellFormed where
  whole_ne_nil := Nat.toDigits_ne_nil
  whole_digits := fun _ => isDigit_of_mem_toDigits
  fraction_digits := fun _ => isDigit_of_mem_fractionDigits units places

end Digits

theorem Binary.fixed_eq (value : Binary) (places : Nat) :
    value.fixed places = (Numeral.ofUnits (value.scaled places) places value.negative).text := by
  rw [fixed, placesText_eq]
  rfl

theorem Numeral.number_ofUnits_rounded (value : Binary) (places : Nat) :
    (Numeral.ofUnits (value.scaled places) places (decide (value.rounded places < 0))).number =
      value.rounded places / 10 ^ places := by
  have hvalue := digitsValue_places (value.scaled places) places
  have hlength := length_fractionDigits (value.scaled places) places
  have hsize := value.natAbs_rounded places
  unfold number ofUnits
  dsimp only
  rw [hvalue, hlength, ← hsize, Nat.cast_natAbs]
  split
  · rename_i hneg
    rw [abs_of_neg (of_decide_eq_true hneg), Int.cast_neg, neg_div, neg_neg]
  · rename_i hnot
    rw [abs_of_nonneg (not_lt.mp fun hneg => hnot (decide_eq_true hneg))]

end MetricLayer.Decimal
