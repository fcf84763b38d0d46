import MetricLayer.Proofs.Decimal.WholeDoubles
import MetricLayer.Proofs.Value.Alike
import Mathlib.Order.WithBot

/-!
# The order of numbers

Two whole numbers are compared as they are, any other two numbers as doubles. Doubles have a place
on one line, and rounding takes whole numbers to it without changing their order. So comparing is
transitive but for one case: a double that two different whole numbers are rounded to equals both
of them.
-/

namespace MetricLayer.Value

open Float.Model Float.Model.UnpackedFloat
open Decimal Decimal.Binary

/-- The rational numbers between two ends. -/
abbrev Line := WithBot (WithTop ℚ)

def Line.ofRat (q : ℚ) : Line := ((q : WithTop ℚ) : WithBot (WithTop ℚ))

def floatPlace (x : Float) : Line :=
  match ofFloat? x, x.toModel.unpack with
  | some value, _ => .ofRat value.toRat
  | none, .infinity .negative => ⊥
  | none, _ => ⊤

theorem Line.compare_ofRat (p q : ℚ) : compare (ofRat p) (ofRat q) = compare p q := by
  have hlt : ∀ {p q : ℚ}, p < q → ofRat p < ofRat q := fun h =>
    WithBot.coe_lt_coe.mpr (WithTop.coe_lt_coe.mpr h)
  rcases lt_trichotomy p q with h | rfl | h
  · rw [compare_lt_iff_lt.mpr h, compare_lt_iff_lt.mpr (hlt h)]
  · rw [compare_eq_iff_eq.mpr rfl, compare_eq_iff_eq.mpr rfl]
  · rw [compare_gt_iff_gt.mpr h, compare_gt_iff_gt.mpr (hlt h)]

theorem Line.bot_lt_ofRat (q : ℚ) : ⊥ < ofRat q := WithBot.bot_lt_coe _

theorem Line.ofRat_lt_top (q : ℚ) : ofRat q < ⊤ :=
  WithBot.coe_lt_coe.mpr (WithTop.coe_lt_top q)

section Doubles

variable {x y : Float}

theorem floatPlace_cases (h : x.isNaN = false) :
    (∃ value, ofFloat? x = some value ∧ floatPlace x = .ofRat value.toRat) ∨
      (x.toModel.unpack = .infinity .negative ∧ floatPlace x = ⊥) ∨
        (x.toModel.unpack = .infinity .positive ∧ floatPlace x = ⊤) := by
  cases hx : ofFloat? x with
  | some value => exact .inl ⟨value, rfl, by rw [floatPlace, hx]⟩
  | none =>
      right
      rcases unpack_of_not_finite hx with ⟨sign, hunpack⟩ | hunpack
      · cases sign with
        | negative => exact .inl ⟨hunpack, by rw [floatPlace, hx, hunpack]⟩
        | positive => exact .inr ⟨hunpack, by rw [floatPlace, hx, hunpack]⟩
      · exact absurd hunpack ((isNaN_eq_false_iff x).mp h)

theorem compare_positive_infinity (value : Binary) :
    value.unpacked.compare (.infinity .positive) = some .lt := by
  unfold unpacked
  split
  · rfl
  · cases value.negative <;> rfl

theorem compare_negative_infinity (value : Binary) :
    value.unpacked.compare (.infinity .negative) = some .gt := by
  unfold unpacked
  split
  · rfl
  · cases value.negative <;> rfl

theorem compareFloats_eq_place (hx : x.isNaN = false) (hy : y.isNaN = false) :
    compareFloats x y = some (compare (floatPlace x) (floatPlace y)) := by
  rcases floatPlace_cases hx with ⟨first, hfirst, hleft⟩ | ⟨hfirst, hleft⟩ | ⟨hfirst, hleft⟩ <;>
    rcases floatPlace_cases hy with
      ⟨second, hsecond, hright⟩ | ⟨hsecond, hright⟩ | ⟨hsecond, hright⟩ <;>
    rw [hleft, hright]
  · rw [compareFloats_of_ofFloat? hfirst hsecond, Line.compare_ofRat]
  · rw [compareFloats_eq, unpack_of_ofFloat? hfirst, hsecond, compare_negative_infinity,
      compare_gt_iff_gt.mpr (Line.bot_lt_ofRat _)]
  · rw [compareFloats_eq, unpack_of_ofFloat? hfirst, hsecond, compare_positive_infinity,
      compare_lt_iff_lt.mpr (Line.ofRat_lt_top _)]
  · rw [compareFloats_eq, unpack_of_ofFloat? hsecond, hfirst, ← compare_swap,
      compare_negative_infinity, compare_lt_iff_lt.mpr (Line.bot_lt_ofRat _)]
    rfl
  · rw [compareFloats_eq, hfirst, hsecond, compare_eq_iff_eq.mpr rfl]
    rfl
  · rw [compareFloats_eq, hfirst, hsecond, compare_lt_iff_lt.mpr bot_lt_top]
    rfl
  · rw [compareFloats_eq, unpack_of_ofFloat? hsecond, hfirst, ← compare_swap,
      compare_positive_infinity, compare_gt_iff_gt.mpr (Line.ofRat_lt_top _)]
    rfl
  · rw [compareFloats_eq, hfirst, hsecond, compare_gt_iff_gt.mpr bot_lt_top]
    rfl
  · rw [compareFloats_eq, hfirst, hsecond, compare_eq_iff_eq.mpr rfl]
    rfl

end Doubles

/-- A whole number, or a double other than a NaN. -/
def IsNumber : Value → Prop
  | int _ => True
  | float x => x.isNaN = false
  | _ => False

/-- Where a number stands among the doubles, a whole number after rounding. -/
def place : Value → Line
  | int n => floatPlace (Float.ofInt n.toInt)
  | float x => floatPlace x
  | _ => ⊥

/-- The first value is not greater than the second, as far as they have an order. -/
def NotAbove (first second : Value) : Prop := first.compare? second ≠ some .gt

/-- Two whole numbers, the first one greater, and a double that is equal to both. -/
inductive Bridged : Value → Value → Value → Prop where
  | intro {m n : Int64} {x : Float} (hlt : n.toInt < m.toInt)
      (hfirst : (int m == float x) = true) (hsecond : (float x == int n) = true) :
      Bridged (int m) (float x) (int n)

section Pairs

variable {first second third : Value} {m n : Int64} {x : Float}

theorem isNaN_ofInt (n : Int64) : (Float.ofInt n.toInt).isNaN = false := by
  obtain ⟨value, hvalue, _⟩ := exists_ofInt64 n
  exact isNaN_of_ofFloat? hvalue

theorem compare?_ints (m n : Int64) :
    (int m).compare? (int n) = some (compare m.toInt n.toInt) := rfl

/-- Unless both of them are whole, numbers are compared by their places. -/
theorem compare?_eq_place (hfirst : first.IsNumber) (hsecond : second.IsNumber)
    (hfloat : ∀ m n, first = int m → second ≠ int n) :
    first.compare? second = some (compare first.place second.place) := by
  cases first with
  | int m =>
      cases second with
      | int n => exact absurd rfl (hfloat m n rfl)
      | float y => exact compareFloats_eq_place (isNaN_ofInt m) hsecond
      | _ => exact hsecond.elim
  | float x =>
      cases second with
      | int n => exact compareFloats_eq_place hfirst (isNaN_ofInt n)
      | float y => exact compareFloats_eq_place hfirst hsecond
      | _ => exact hsecond.elim
  | _ => exact hfirst.elim

theorem place_int_le (h : m.toInt ≤ n.toInt) : (int m).place ≤ (int n).place := by
  obtain ⟨first, hfirst, hm⟩ := exists_ofInt64 m
  obtain ⟨second, hsecond, hn⟩ := exists_ofInt64 n
  have hle : first.toRat ≤ second.toRat := hm.toRat_le hn h
  rw [place, place, floatPlace, floatPlace, hfirst, hsecond]
  exact WithBot.coe_le_coe.mpr (WithTop.coe_le_coe.mpr hle)

/-- Numbers are compared, one way and the other. -/
theorem exists_compare? (hfirst : first.IsNumber) (hsecond : second.IsNumber) :
    ∃ order, first.compare? second = some order ∧ second.compare? first = some order.swap := by
  by_cases hwhole : ∃ m n, first = int m ∧ second = int n
  · obtain ⟨m, n, rfl, rfl⟩ := hwhole
    exact ⟨compare m.toInt n.toInt, rfl, congrArg some Std.OrientedCmp.eq_swap⟩
  · refine ⟨compare first.place second.place, compare?_eq_place hfirst hsecond ?_, ?_⟩
    · exact fun m n hm hn => hwhole ⟨m, n, hm, hn⟩
    · rw [compare?_eq_place hsecond hfirst fun m n hm hn => hwhole ⟨n, m, hn, hm⟩]
      exact congrArg some Std.OrientedCmp.eq_swap

theorem notAbove_ints : NotAbove (int m) (int n) ↔ m.toInt ≤ n.toInt := by
  rw [NotAbove, compare?_ints, ne_eq, Option.some_inj]
  exact compare_le_iff_le

theorem notAbove_iff_place (hfirst : first.IsNumber) (hsecond : second.IsNumber)
    (hfloat : ∀ m n, first = int m → second ≠ int n) :
    NotAbove first second ↔ first.place ≤ second.place := by
  rw [NotAbove, compare?_eq_place hfirst hsecond hfloat, ne_eq, Option.some_inj]
  exact compare_le_iff_le

theorem NotAbove.place_le (h : NotAbove first second) (hfirst : first.IsNumber)
    (hsecond : second.IsNumber) : first.place ≤ second.place := by
  by_cases hwhole : ∃ m n, first = int m ∧ second = int n
  · obtain ⟨m, n, rfl, rfl⟩ := hwhole
    exact place_int_le (notAbove_ints.mp h)
  · exact (notAbove_iff_place hfirst hsecond fun m n hm hn => hwhole ⟨m, n, hm, hn⟩).mp h

/-- Equal numbers are those in neither order. -/
theorem beq_iff_notAbove (hfirst : first.IsNumber) (hsecond : second.IsNumber) :
    (first == second) = true ↔ NotAbove first second ∧ NotAbove second first := by
  have hnull : second.isNull = false := by
    cases second with
    | null => exact hsecond.elim
    | _ => rfl
  obtain ⟨order, horder, hswap⟩ := exists_compare? hfirst hsecond
  rw [equals_iff_compare? first hnull, NotAbove, NotAbove, horder, hswap]
  cases order <;> decide

theorem beq_comm_of_numbers (hfirst : first.IsNumber) (hsecond : second.IsNumber) :
    (first == second) = true ↔ (second == first) = true := by
  rw [beq_iff_notAbove hfirst hsecond, beq_iff_notAbove hsecond hfirst, and_comm]

end Pairs

section Triples

variable {first second third : Value} {m n : Int64}

theorem Bridged.beq (h : Bridged first second third) :
    (first == second) = true ∧ (second == third) = true ∧ ¬ (first == third) = true := by
  obtain @⟨m, n, x, hlt, hfirst, hsecond⟩ := h
  refine ⟨hfirst, hsecond, fun hends => ?_⟩
  obtain ⟨hle, -⟩ := (@beq_iff_notAbove (int m) (int n) trivial trivial).mp hends
  exact not_le.mpr hlt (notAbove_ints.mp hle)

theorem Bridged.notAbove (h : Bridged first second third) :
    NotAbove first second ∧ NotAbove second third ∧ ¬ NotAbove first third := by
  obtain @⟨m, n, x, hlt, hfirst, hsecond⟩ := h
  rw [NotAbove, NotAbove, (equals_iff_compare? (int m) rfl).mp hfirst,
    (equals_iff_compare? (float x) rfl).mp hsecond, notAbove_ints]
  exact ⟨by decide, by decide, not_le.mpr hlt⟩

/-- Only a bridge breaks the chain: otherwise the places of the numbers decide. -/
theorem NotAbove.trans_iff (hfirst : first.IsNumber) (hsecond : second.IsNumber)
    (hthird : third.IsNumber) :
    (NotAbove first second → NotAbove second third → NotAbove first third) ↔
      ¬ Bridged first second third := by
  constructor
  · intro htrans hbridged
    obtain ⟨hleft, hright, hends⟩ := hbridged.notAbove
    exact hends (htrans hleft hright)
  · intro hbridged hleft hright
    have hle := (hleft.place_le hfirst hsecond).trans (hright.place_le hsecond hthird)
    by_cases hwhole : ∃ m n, first = int m ∧ third = int n
    · obtain ⟨m, n, rfl, rfl⟩ := hwhole
      cases second with
      | int k =>
          rw [notAbove_ints] at *
          exact hleft.trans hright
      | float x =>
          rw [notAbove_ints]
          by_contra hgt
          have hgt : n.toInt < m.toInt := not_le.mp hgt
          -- All three stand at one place, so the double equals both whole numbers.
          have hback := place_int_le hgt.le
          refine hbridged (.intro hgt ?_ ?_)
          · refine (beq_iff_notAbove hfirst hsecond).mpr ⟨hleft, ?_⟩
            rw [notAbove_iff_place hsecond hfirst nofun]
            exact (hright.place_le hsecond hthird).trans hback
          · refine (beq_iff_notAbove hsecond hthird).mpr ⟨hright, ?_⟩
            rw [notAbove_iff_place hthird hsecond fun _ _ _ => nofun]
            exact hback.trans (hleft.place_le hfirst hsecond)
      | _ => exact hsecond.elim
    · exact (notAbove_iff_place hfirst hthird fun m n hm hn => hwhole ⟨m, n, hm, hn⟩).mpr hle

theorem Bridged.place_eq (h : Bridged first second third) : first.place = third.place := by
  obtain @⟨m, n, x, hlt, hfirst, hsecond⟩ := h
  have hx : (float x).IsNumber := by
    by_contra hnan
    have hnan : x.isNaN = true := Bool.not_eq_false _ ▸ hnan
    have hnone : (int m).compare? (float x) = none := compareFloats_nan hnan _
    rw [equals_iff_compare? (int m) rfl, hnone] at hfirst
    cases hfirst
  have hm : (int m).IsNumber := trivial
  have hn : (int n).IsNumber := trivial
  obtain ⟨hleft, hleft'⟩ := (beq_iff_notAbove hm hx).mp hfirst
  obtain ⟨hright, hright'⟩ := (beq_iff_notAbove hx hn).mp hsecond
  exact le_antisymm ((hleft.place_le hm hx).trans (hright.place_le hx hn))
    ((hright'.place_le hn hx).trans (hleft'.place_le hx hm))

/-- The whole numbers at the ends of a bridge have no double of their own. -/
theorem Bridged.not_ownDouble (h : Bridged (int m) second (int n)) :
    ¬ OwnDouble m.toInt.natAbs ∧ ¬ OwnDouble n.toInt.natAbs := by
  obtain ⟨left, hleft, hm⟩ := exists_ofInt64 m
  obtain ⟨right, hright, hn⟩ := exists_ofInt64 n
  have hplace := h.place_eq
  rw [place, place, floatPlace, floatPlace, hleft, hright] at hplace
  have hsame : left.toRat = right.toRat := WithTop.coe_injective (WithBot.coe_injective hplace)
  have hne : m.toInt ≠ n.toInt := by
    cases h with
    | intro hlt => exact hlt.ne'
  constructor
  · intro hown
    have hexact := hm.toRat_eq_iff.mpr (hasDouble_of_ownDouble hown)
    exact hn.toRat_ne hm hexact hown hne.symm hsame.symm
  · intro hown
    have hexact := hn.toRat_eq_iff.mpr (hasDouble_of_ownDouble hown)
    exact hm.toRat_ne hn hexact hown hne hsame

end Triples

/-- **Numbers are in a total order, but for bridges.** Any two of them are compared, the other way
round with the opposite outcome, and they are equal just when they compare as equal. "Not greater"
is transitive from one number over a second to a third unless these are a bridge, and equality
unless they are one in either direction. The whole numbers at the ends of a bridge are so large that
neither has a double of its own. -/
theorem preorder_iff_not_bridged {first second third : Value} (hfirst : first.IsNumber)
    (hsecond : second.IsNumber) (hthird : third.IsNumber) :
    (∃ order, first.compare? second = some order ∧ second.compare? first = some order.swap ∧
      ((first == second) = true ↔ order = .eq)) ∧
    ((NotAbove first second → NotAbove second third → NotAbove first third) ↔
      ¬ Bridged first second third) ∧
    (((first == second) = true → (second == third) = true → (first == third) = true) ↔
      ¬ Bridged first second third ∧ ¬ Bridged third second first) ∧
    ∀ m n, Bridged (int m) second (int n) →
      ¬ OwnDouble m.toInt.natAbs ∧ ¬ OwnDouble n.toInt.natAbs := by
  refine ⟨?_, NotAbove.trans_iff hfirst hsecond hthird, ?_, fun _ _ => Bridged.not_ownDouble⟩
  · obtain ⟨order, horder, hswap⟩ := exists_compare? hfirst hsecond
    refine ⟨order, horder, hswap, ?_⟩
    rw [beq_iff_notAbove hfirst hsecond, NotAbove, NotAbove, horder, hswap]
    cases order <;> decide
  · constructor
    · intro htrans
      refine ⟨fun hbridged => ?_, fun hbridged => ?_⟩
      · obtain ⟨hleft, hright, hends⟩ := hbridged.beq
        exact hends (htrans hleft hright)
      · obtain ⟨hright, hleft, hends⟩ := hbridged.beq
        rw [beq_comm_of_numbers hsecond hfirst] at hleft
        rw [beq_comm_of_numbers hthird hsecond] at hright
        rw [beq_comm_of_numbers hthird hfirst] at hends
        exact hends (htrans hleft hright)
    · rintro ⟨hforth, hback⟩ hleft hright
      rw [beq_iff_notAbove hfirst hsecond] at hleft
      rw [beq_iff_notAbove hsecond hthird] at hright
      exact (beq_iff_notAbove hfirst hthird).mpr
        ⟨(NotAbove.trans_iff hfirst hsecond hthird).mpr hforth hleft.1 hright.1,
          (NotAbove.trans_iff hthird hsecond hfirst).mpr hback hright.2 hleft.2⟩

/-- Two neighboring whole numbers and the double that both are rounded to. -/
theorem preorder_iff_not_bridged_neighbors :
    (int 9007199254740993 == float 9007199254740992.0) = true ∧
      (float 9007199254740992.0 == int 9007199254740992) = true ∧
      ¬ ((int 9007199254740993 == float 9007199254740992.0) = true →
        (float 9007199254740992.0 == int 9007199254740992) = true →
          (int 9007199254740993 == int 9007199254740992) = true) ∧
      ¬ (NotAbove (int 9007199254740993) (float 9007199254740992.0) →
        NotAbove (float 9007199254740992.0) (int 9007199254740992) →
          NotAbove (int 9007199254740993) (int 9007199254740992)) := by
  have hleft : (int 9007199254740993 == float 9007199254740992.0) = true := by decide +kernel
  have hright : (float 9007199254740992.0 == int 9007199254740992) = true := by decide +kernel
  have hbridged : Bridged (int 9007199254740993) (float 9007199254740992.0)
      (int 9007199254740992) := .intro (by decide) hleft hright
  have hnumber : (9007199254740992.0 : Float).isNaN = false := by decide +kernel
  obtain ⟨-, horder, hequal, -⟩ := @preorder_iff_not_bridged (int 9007199254740993)
    (float 9007199254740992.0) (int 9007199254740992) trivial hnumber trivial
  exact ⟨hleft, hright, fun h => (hequal.mp h).1 hbridged, fun h => horder.mp h hbridged⟩

end MetricLayer.Value
