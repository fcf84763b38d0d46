import MetricLayer.Proofs.Decimal.JsonText
import MetricLayer.Proofs.Json.Numerals
import MetricLayer.Proofs.Json.Scaling

/-!
# Reading the texts of doubles

The text of a finite double is a numeral. Its digits, wherever the point stands among them, are the
shortest digits of the double, and the numeral is read by scaling these. So every such text is
accepted, and it is read as the double itself if its digits and its power of ten are small.
-/

namespace MetricLayer.Json

open Decimal

namespace Numeral

/-- All digits before the exponent, without the point. -/
def coefficient (numeral : Numeral) : Nat :=
  digitsValue (numeral.whole ++ numeral.fraction.getD [])

/-- The power of ten for the last of these digits. -/
def power (numeral : Numeral) : Int :=
  (match numeral.exponent with
    | none => 0
    | some (down, digits) => if down then -(digitsValue digits : Int) else digitsValue digits) -
      (numeral.fraction.getD []).length

/-- What the digits make after a number that starts with others. -/
theorem digitsValue_append_cons (start : Nat) (c : Char) (digits : List Char) :
    tenTo (c :: digits).length * start + digitsValue (c :: digits) =
      tenTo digits.length * (start * 10 + digitValue c) + digitsValue digits := by
  have hten : tenTo (c :: digits).length = tenTo digits.length * 10 := pow_succ 10 _
  rw [digitsValue_cons, hten]
  ring

/-- All digits are taken if the number that they make fits. -/
theorem absorb_eq (start : Nat) (digits : List Char)
    (h : tenTo digits.length * start + digitsValue digits < twoTo 64) :
    absorb start digits = (tenTo digits.length * start + digitsValue digits, []) := by
  -- What is taken so far is never more than the whole number.
  induction digits generalizing start with
  | nil => simp [absorb, tenTo, digitsValue]
  | cons c digits ih =>
      rw [digitsValue_append_cons] at h ⊢
      have hle : start * 10 + digitValue c ≤
          tenTo digits.length * (start * 10 + digitValue c) :=
        Nat.le_mul_of_pos_left _ (tenTo_pos _)
      rw [absorb, if_pos (by omega), ih _ h]

theorem float?_eq {numeral : Numeral} (hcoefficient : numeral.coefficient < twoTo 64)
    (hexponent : ∀ entry ∈ numeral.exponent, digitsValue entry.2 < twoTo 31) :
    numeral.float? = (scale? 4 (Float.ofNat numeral.coefficient) numeral.power).map
      fun x => if numeral.negative then -x else x := by
  have hsplit : numeral.coefficient = tenTo (numeral.fraction.getD []).length *
      digitsValue numeral.whole + digitsValue (numeral.fraction.getD []) := digitsValue_append _ _
  have hwhole : tenTo numeral.whole.length * 0 + digitsValue numeral.whole < twoTo 64 := by
    have hle := Nat.le_mul_of_pos_left (digitsValue numeral.whole)
      (tenTo_pos (numeral.fraction.getD []).length)
    omega
  rw [hsplit] at hcoefficient
  unfold float? power
  rw [absorb_eq 0 _ hwhole]
  dsimp only
  rw [Nat.mul_zero, Nat.zero_add, absorb_eq _ _ hcoefficient, ← hsplit]
  dsimp only
  rw [List.length_nil, Nat.cast_zero, Nat.sub_zero]
  cases hentry : numeral.exponent with
  | none => rfl
  | some entry =>
      obtain ⟨down, digits⟩ := entry
      have hsmall : ¬ twoTo 31 ≤ digitsValue digits := not_le.mpr (hexponent _ hentry)
      have htotal : (if down = true then
          (0 : Int) - (numeral.fraction.getD []).length - digitsValue digits
          else (0 : Int) - (numeral.fraction.getD []).length + digitsValue digits) =
          (if down = true then -(digitsValue digits : Int) else digitsValue digits) -
            (numeral.fraction.getD []).length := by
        split <;> omega
      dsimp only
      rw [if_neg hsmall, htotal]

/-- A numeral with a fraction or an exponent is a double. -/
theorem value?_eq {numeral : Numeral}
    (h : numeral.fraction.isSome = true ∨ numeral.exponent.isSome = true) :
    numeral.value? = numeral.float?.map .float := by
  unfold value?
  split
  · rename_i hfraction hexponent
    rw [hfraction, hexponent] at h
    rcases h with h | h <;> cases h
  · rfl

/-- Without its sign the numeral has this text. It is a double with these digits. -/
structure Spells (numeral : Numeral) (text : List Char) (coefficient : Nat) (power : Int) :
    Prop where
  wellFormed : numeral.WellFormed
  text_eq : numeral.whole ++
    (fractionChars numeral.fraction ++ exponentChars numeral.exponent) = text
  coefficient_eq : numeral.coefficient = coefficient
  power_eq : numeral.power = power
  isDouble : numeral.fraction.isSome = true ∨ numeral.exponent.isSome = true
  exponent_lt : ∀ entry ∈ numeral.exponent, digitsValue entry.2 < twoTo 31

theorem Spells.value?_append {numeral : Numeral} {text rest : List Char} {coefficient : Nat}
    {power : Int} (h : numeral.Spells text coefficient power) (hlt : coefficient < twoTo 64)
    (levels : Nat) (hrest : Stops rest) :
    Json.value? levels ((if numeral.negative then ['-'] else []) ++ text ++ rest) =
      ((scale? 4 (Float.ofNat coefficient) power).map
        fun x => if numeral.negative then -x else x).map fun x => (float x, rest) := by
  have hread := h.wellFormed.value?_of_hasText (hasText_chars numeral) levels hrest
  rw [chars, h.text_eq] at hread
  rw [hread, value?_eq h.isDouble, float?_eq (h.coefficient_eq ▸ hlt) h.exponent_lt,
    h.coefficient_eq, h.power_eq, Option.map_map]
  rfl

end Numeral

section Layouts

open Numeral

variable {digits : List Char} {exponent : Int}

theorem isWhole_zero : IsWhole ['0'] where
  ne_nil := nofun
  isDigit := fun c hc => by
    rw [List.mem_singleton.mp hc]
    rfl
  lead := fun _ => rfl

theorem spells_pointBefore (hdigits : IsDigits digits) (negative : Bool) (zeros : Nat) :
    Spells ⟨negative, ['0'], some (List.replicate zeros '0' ++ digits), none⟩
      ('0' :: '.' :: List.replicate zeros '0' ++ digits) (digitsValue digits)
      (-(zeros + digits.length : ℕ)) where
  wellFormed := by
    refine ⟨isWhole_zero, fun fraction hfraction => ?_, nofun⟩
    obtain rfl := Option.some.inj hfraction
    exact ⟨List.append_ne_nil_of_right_ne_nil _ hdigits.ne_nil,
      isDigit_of_mem_append isDigit_of_mem_zeros hdigits.isDigit⟩
  text_eq := by simp [fractionChars, exponentChars]
  coefficient_eq := by
    have hzero : digitsValue ['0'] = 0 := rfl
    rw [coefficient, Option.getD_some, digitsValue_append, digitsValue_append, digitsValue_zeros,
      hzero]
    omega
  power_eq := by
    rw [power, Option.getD_some, List.length_append, List.length_replicate]
    exact zero_sub _
  isDouble := .inl rfl
  exponent_lt := nofun

theorem spells_pointWithin (hdigits : IsDigits digits) (hlead : digits.head? ≠ some '0')
    (negative : Bool) {place : Nat} (hplace : place ≠ 0) (hlt : place < digits.length) :
    Spells ⟨negative, digits.take place, some (digits.drop place), none⟩
      (digits.take place ++ '.' :: digits.drop place) (digitsValue digits)
      (-(digits.length - place : ℕ)) where
  wellFormed := by
    refine ⟨⟨?_, fun c hc => hdigits.isDigit c (List.mem_of_mem_take hc), fun hhead => ?_⟩,
      fun fraction hfraction => ?_, nofun⟩
    · rw [Ne, List.take_eq_nil_iff]
      exact fun hnil => hnil.elim hplace hdigits.ne_nil
    · rw [List.head?_take, if_neg hplace] at hhead
      exact absurd hhead hlead
    · obtain rfl := Option.some.inj hfraction
      refine ⟨?_, fun c hc => hdigits.isDigit c (List.mem_of_mem_drop hc)⟩
      rw [Ne, List.drop_eq_nil_iff]
      omega
  text_eq := by simp [fractionChars, exponentChars]
  coefficient_eq := by rw [coefficient, Option.getD_some, List.take_append_drop]
  power_eq := by
    rw [power, Option.getD_some, List.length_drop]
    exact zero_sub _
  isDouble := .inl rfl
  exponent_lt := nofun

/-- With the point in front of some of the digits. -/
theorem exists_spells_positionalText (hdigits : IsDigits digits) (hlead : digits.head? ≠ some '0')
    (hexponent : exponent < 0) (negative : Bool) :
    ∃ numeral : Numeral, numeral.negative = negative ∧
      numeral.Spells (positionalText true digits (exponent + digits.length)) (digitsValue digits)
        exponent := by
  unfold positionalText
  dsimp only
  by_cases hposition : exponent + digits.length ≤ 0
  · have hspells := spells_pointBefore hdigits negative (-(exponent + digits.length)).toNat
    have hpower : -(((-(exponent + digits.length)).toNat + digits.length : ℕ) : Int) =
        exponent := by
      omega
    rw [hpower] at hspells
    rw [if_pos hposition]
    exact ⟨_, rfl, hspells⟩
  · have hplace : (exponent + digits.length).toNat ≠ 0 := by omega
    have hspells := spells_pointWithin hdigits hlead negative hplace (by omega)
    have hpower : -((digits.length - (exponent + digits.length).toNat : ℕ) : Int) = exponent := by
      omega
    rw [hpower] at hspells
    rw [if_neg hposition, if_neg (by omega)]
    exact ⟨_, rfl, hspells⟩

/-- An exponent is written as its sign and its digits. -/
theorem exponentChars_signed (shown : Int) :
    exponentChars (some (decide (shown < 0), digitChars shown.natAbs)) =
      'e' :: (if shown < 0 then ['-'] else ['+']) ++ digitChars shown.natAbs := by
  by_cases hneg : shown < 0
  · rw [if_pos hneg, decide_eq_true hneg]
    rfl
  · rw [if_neg hneg, decide_eq_false hneg]
    rfl

theorem signed_natAbs (shown : Int) :
    (if decide (shown < 0) then -(shown.natAbs : Int) else shown.natAbs) = shown := by
  by_cases hneg : shown < 0
  · rw [decide_eq_true hneg, if_pos rfl]
    omega
  · rw [decide_eq_false hneg, if_neg Bool.false_ne_true]
    omega

/-- With one digit in front of the point. -/
theorem exists_spells_exponentText (hdigits : IsDigits digits) {shown : Int}
    (hshown : exponent + digits.length - 1 = shown) (hsmall : shown.natAbs < twoTo 31)
    (negative : Bool) :
    ∃ numeral : Numeral, numeral.negative = negative ∧
      numeral.Spells (exponentText true digits shown) (digitsValue digits) exponent := by
  obtain ⟨digit, rest, rfl⟩ := List.exists_cons_of_ne_nil hdigits.ne_nil
  have hdigit : digit.isDigit = true := hdigits.isDigit digit List.mem_cons_self
  have hwhole : IsWhole [digit] := by
    refine ⟨nofun, fun c hc => (List.mem_singleton.mp hc) ▸ hdigit, fun hhead => ?_⟩
    rw [Option.some.inj hhead]
  have hvalue : digitsValue (digitChars shown.natAbs) = shown.natAbs := digitsValue_toDigits _
  have hfraction : (if rest = [] then none else some rest).getD [] = rest := by
    cases rest <;> simp
  refine ⟨⟨negative, [digit], if rest = [] then none else some rest,
    some (decide (shown < 0), digitChars shown.natAbs)⟩, rfl, ⟨hwhole, ?_, ?_⟩, ?_, ?_, ?_,
      .inr rfl, ?_⟩
  · intro fraction hmem
    dsimp only at hmem
    split at hmem
    · cases hmem
    · rename_i hne
      obtain rfl := Option.some.inj hmem
      exact ⟨hne, fun c hc => hdigits.isDigit c (List.mem_cons_of_mem digit hc)⟩
  · intro entry hentry
    obtain rfl := Option.some.inj hentry
    exact ⟨Nat.toDigits_ne_nil, fun c hc => isDigit_of_mem_toDigits hc⟩
  · unfold exponentText
    dsimp only
    rw [if_pos rfl, exponentChars_signed]
    cases rest <;> simp [fractionChars]
  · rw [coefficient, hfraction]
    rfl
  · rw [List.length_cons] at hshown
    rw [power, hfraction]
    dsimp only
    rw [hvalue, signed_natAbs]
    omega
  · intro entry hentry
    obtain rfl := Option.some.inj hentry
    rw [hvalue]
    exact hsmall

end Layouts

section Doubles

open Binary

variable {x : Float} {value : Binary}

/-- The digits in the text of the double. -/
def shownDigits (value : Binary) : List Char := digitChars (value.shortest .toEven).coefficient

/-- If the text has no exponent, its digits reach behind the point. -/
def HasFraction (value : Binary) : Prop :=
  Layout.json.positional ((value.shortest .toEven).exponent + (shownDigits value).length) = true →
    (value.shortest .toEven).exponent < 0

theorem length_shownDigits_le (hnormal : value.Normal) (hpositive : 0 < value.significand) :
    (shownDigits value).length ≤ 17 :=
  (Nat.length_toDigits_le_iff (by decide) (by decide)).mpr
    (coefficient_shortest_lt hnormal hpositive .toEven)

theorem exists_spells_magnitude (hnormal : value.Normal) (hexponent : value.exponent ≤ 971)
    (hpositive : 0 < value.significand) (hfraction : HasFraction value) (negative : Bool) :
    ∃ numeral : Numeral, numeral.negative = negative ∧
      numeral.Spells (Layout.json.magnitude value) (value.shortest .toEven).coefficient
        (value.shortest .toEven).exponent := by
  have hpos := coefficient_shortest_pos hnormal hpositive .toEven
  have hvalue : digitsValue (shownDigits value) = (value.shortest .toEven).coefficient :=
    digitsValue_toDigits _
  have hdigits : Numeral.IsDigits (shownDigits value) :=
    ⟨Nat.toDigits_ne_nil, fun c hc => isDigit_of_mem_toDigits hc⟩
  have hmagnitude : Layout.json.magnitude value =
      if Layout.json.positional ((value.shortest .toEven).exponent + (shownDigits value).length)
      then positionalText true (shownDigits value)
        ((value.shortest .toEven).exponent + (shownDigits value).length)
      else exponentText true (shownDigits value)
        ((value.shortest .toEven).exponent + (shownDigits value).length - 1) := by
    rw [Layout.magnitude, if_neg hpositive.ne']
    rfl
  rw [hmagnitude]
  split
  · rename_i hpositional
    have htext := exists_spells_positionalText hdigits (head_toDigits_ne_zero hpos)
      (hfraction hpositional) negative
    rwa [hvalue] at htext
  · have hlength := length_shownDigits_le hnormal hpositive
    have hleast := lt_exponent_shortest hnormal hpositive .toEven
    have hmost := exponent_shortest_le hnormal hexponent hpositive .toEven
    have hsmall : ((value.shortest .toEven).exponent + (shownDigits value).length - 1).natAbs <
        twoTo 31 := by
      have hbound : twoTo 31 = 2147483648 := rfl
      omega
    have htext := exists_spells_exponentText hdigits rfl hsmall negative
    rwa [hvalue] at htext

/-- The digits and the power of ten are exact as doubles. -/
def FewDigits (value : Binary) : Prop :=
  (value.shortest .toEven).coefficient < twoTo 53 ∧ (value.shortest .toEven).exponent.natAbs ≤ 22

/-- The text of a finite double is read as some number, and as the double itself if it has few
digits. -/
theorem exists_readsAs_float (h : ofFloat? x = some value) (hpositive : 0 < value.significand)
    (hfraction : HasFraction value) :
    ∃ y : Float, (∀ levels, ReadsAs levels (float x) (float y)) ∧ y.isNaN = false ∧
      (FewDigits value → y = x) := by
  have hnormal := normal_of_ofFloat? h
  have hexponent := exponent_le_of_ofFloat? h
  have hpos := coefficient_shortest_pos hnormal hpositive .toEven
  have hlt := coefficient_shortest_lt hnormal hpositive .toEven
  have hbound : (value.shortest .toEven).coefficient < twoTo 64 := hlt.trans (by decide)
  obtain ⟨numeral, hnegative, hspells⟩ :=
    exists_spells_magnitude hnormal hexponent hpositive hfraction value.negative
  obtain ⟨y, hscale, hnumber⟩ := exists_scale?_shortest hnormal hexponent hpositive
  refine ⟨if value.negative then -y else y, ?_, ?_, ?_⟩
  · intro levels rest hrest
    have hread := hspells.value?_append hbound levels hrest
    rw [hscale, hnegative] at hread
    rw [chars, writeFloat_of_ofFloat? h]
    exact hread
  · split
    · exact isNaN_neg hnumber
    · exact hnumber
  · intro hfew
    obtain ⟨hleading, z, hexact, hform⟩ := exists_scale?_exact hpos hfew.1 hfew.2 hnormal
      (names_shortest hnormal hpositive .toEven)
    obtain rfl : y = z := Option.some.inj (hscale.symm.trans hexact)
    have hsame : ofFloat? (if value.negative then -y else y) = some value := by
      cases hsign : value.negative with
      | true =>
          have hform_eq : { value with negative := true } = value := by rw [← hsign]
          rw [if_pos rfl, ofFloat?_neg hform hleading]
          exact congrArg some hform_eq
      | false =>
          have hform_eq : { value with negative := false } = value := by rw [← hsign]
          rw [if_neg Bool.false_ne_true, hform, hform_eq]
    exact ofFloat?_inj hsame h

end Doubles

end MetricLayer.Json
