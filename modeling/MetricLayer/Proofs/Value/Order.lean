import MetricLayer.Value
import MetricLayer.Proofs.Decimal.SharedDoubles

/-!
# The order of numbers

Doubles are compared in their unpacked form. A whole double compares with other doubles like the
whole number that it stands for; it compares with whole numbers like that one as well, unless they
share it.
-/

namespace MetricLayer.Value

open Float.Model Float.Model.UnpackedFloat
open Decimal Decimal.Binary

theorem compare_swap (first second : UnpackedFloat) :
    (first.compare second).map Ordering.swap = second.compare first := by
  have hint : ∀ a b : Int, (compare a b).swap = compare b a :=
    fun a b => Std.OrientedCmp.eq_swap.symm
  have hnat : ∀ a b : Nat, (compare a b).swap = compare b a :=
    fun a b => Std.OrientedCmp.eq_swap.symm
  cases first with
  | infinity s =>
      cases second with
      | infinity t => cases s <;> cases t <;> rfl
      | notANumber => cases s <;> rfl
      | zero t => cases s <;> rfl
      | finite t => cases s <;> rfl
  | notANumber => cases second <;> rfl
  | zero s =>
      cases second with
      | infinity t => cases t <;> rfl
      | notANumber => rfl
      | zero t => rfl
      | finite t => cases t <;> rfl
  | finite s m e =>
      cases second with
      | infinity t => cases s <;> cases t <;> rfl
      | notANumber => cases s <;> rfl
      | zero t => cases s <;> rfl
      | finite t =>
          cases s <;> cases t
          · simp [UnpackedFloat.compare, Ordering.swap_then, hint, hnat]
          · rfl
          · rfl
          · simp [UnpackedFloat.compare, Ordering.swap_then, hint, hnat]

theorem lt_iff_compare (x y : Float) :
    x < y ↔ x.toModel.unpack.compare y.toModel.unpack = some .lt := by
  have hdecide : x < y ↔ x.toModel.unpack.lt y.toModel.unpack = true := by
    change decide _ = true ↔ _
    exact decide_eq_true_iff
  rw [hdecide, UnpackedFloat.lt, beq_iff_eq]

theorem beq_iff_compare (x y : Float) :
    (x == y) = true ↔ x.toModel.unpack.compare y.toModel.unpack = some .eq := by
  have hbeq : (x == y) = x.toModel.unpack.beq y.toModel.unpack := rfl
  rw [hbeq, UnpackedFloat.beq, beq_iff_eq]

theorem compareFloats_eq (x y : Float) :
    Value.compareFloats x y = x.toModel.unpack.compare y.toModel.unpack := by
  have hswap := compare_swap x.toModel.unpack y.toModel.unpack
  unfold Value.compareFloats
  simp only [lt_iff_compare, beq_iff_compare, ← hswap]
  rcases x.toModel.unpack.compare y.toModel.unpack with _ | order
  · rfl
  · cases order <;> rfl

theorem beq_iff_compareFloats (x y : Float) :
    (x == y) = true ↔ compareFloats x y = some .eq := by
  rw [beq_iff_compare, compareFloats_eq]

theorem compareFloats_nan {x : Float} (h : x.isNaN = true) (y : Float) :
    compareFloats y x = none := by
  have hunpack : x.toModel.unpack = .notANumber := UnpackedFloat.isNaN_iff.mp h
  rw [compareFloats_eq, hunpack]
  cases y.toModel.unpack with
  | infinity s => cases s <;> rfl
  | notANumber => rfl
  | zero s => rfl
  | finite s => cases s <;> rfl

/-- Unpacked forms that compare as equal are the same, up to the sign of a zero. -/
theorem eq_of_compare {first second : UnpackedFloat} (h : first.compare second = some .eq) :
    first = second ∨ ∃ sign other, first = .zero sign ∧ second = .zero other := by
  have hbeq : first.beq second = true := by
    rw [UnpackedFloat.beq, h]
    rfl
  obtain ⟨_, _, hsame⟩ := (beq_iff_ne_notANumber_and_eq first second).mp hbeq
  rcases hsame with heq | ⟨hfirst, hsecond⟩ | ⟨hfirst, hsecond⟩
  · exact .inl heq
  · exact .inr ⟨_, _, hfirst, hsecond⟩
  · exact .inr ⟨_, _, hfirst, hsecond⟩

theorem compare_zero (first : UnpackedFloat) (sign other : Sign) :
    first.compare (.zero sign) = first.compare (.zero other) := by
  cases first with
  | infinity s => cases s <;> rfl
  | notANumber => rfl
  | zero s => rfl
  | finite s => cases s <;> rfl

theorem compareFloats_congr {x y : Float} (h : compareFloats x y = some .eq) (z : Float) :
    compareFloats z x = compareFloats z y := by
  rw [compareFloats_eq] at *
  rw [compareFloats_eq]
  rcases eq_of_compare h with heq | ⟨sign, other, hx, hy⟩
  · rw [heq]
  · rw [hx, hy]
    exact compare_zero _ _ _

theorem compareFloats_of_ofFloat? {x y : Float} {first second : Binary}
    (hx : ofFloat? x = some first) (hy : ofFloat? y = some second) :
    compareFloats x y = some (compare first.toRat second.toRat) := by
  rw [compareFloats_eq, unpack_of_ofFloat? hx, unpack_of_ofFloat? hy,
    compare_unpacked (normal_of_ofFloat? hx) (normal_of_ofFloat? hy)]

theorem toInt_of_int64? {n : Int} {whole : Int64} (h : int64? n = some whole) :
    whole.toInt = n := by
  unfold int64? at h
  split at h
  · rename_i hrange
    obtain rfl := Option.some.inj h
    exact Int64.toInt_ofInt_of_le (by omega) (by omega)
  · cases h

theorem natAbs_toInt_lt (n : Int64) : n.toInt.natAbs ≤ 9223372036854775808 := by
  have hlow := n.minValue_le_toInt
  have hhigh := n.toInt_lt
  simp only [Int64.toInt_minValue] at hlow
  omega

variable {x : Float} {n : Int64}

theorem exists_ofInt64 (n : Int64) :
    ∃ value, ofFloat? (Float.ofInt n.toInt) = some value ∧ value.Rounds n.toInt := by
  have hle := natAbs_toInt_lt n
  exact exists_ofInt (by omega)

/-- A whole double and the double of its number stand for that number. -/
theorem exists_of_wholeFloat? (h : wholeFloat? x = some n) :
    ∃ value other, ofFloat? x = some value ∧ value.toRat = n.toInt ∧
      ofFloat? (Float.ofInt n.toInt) = some other ∧ other.Rounds n.toInt ∧
        other.toRat = n.toInt := by
  unfold wholeFloat? at h
  obtain ⟨value, hvalue, h⟩ := Option.bind_eq_some_iff.mp h
  obtain ⟨whole, hwhole, h⟩ := Option.bind_eq_some_iff.mp h
  obtain ⟨other, hother, hrounds⟩ := exists_ofInt64 n
  have hexact : value.toRat = n.toInt := by
    rw [toInt_of_int64? h]
    exact toRat_of_toInt? hwhole
  exact ⟨value, other, hvalue, hexact, hother, hrounds,
    hrounds.toRat_of_exact (normal_of_ofFloat? hvalue) hexact⟩

/-- Doubles compare with a whole double like with the double of its number. -/
theorem compareFloats_whole (h : wholeFloat? x = some n) (y : Float) :
    compareFloats y x = compareFloats y (Float.ofInt n.toInt) := by
  obtain ⟨value, other, hvalue, hexact, hother, _, hexact'⟩ := exists_of_wholeFloat? h
  refine compareFloats_congr ?_ y
  rw [compareFloats_of_ofFloat? hvalue hother, hexact, hexact', compare_eq_iff_eq.mpr rfl]

/-- Whole numbers compare with a whole double like with its number, if that has a double of its
own. -/
theorem compareFloats_ofInt (h : wholeFloat? x = some n) (hown : OwnDouble n.toInt.natAbs)
    (m : Int64) :
    compareFloats (Float.ofInt m.toInt) x = some (compare m.toInt n.toInt) := by
  obtain ⟨_, second, _, _, hsecond, hn, hexact⟩ := exists_of_wholeFloat? h
  obtain ⟨first, hfirst, hm⟩ := exists_ofInt64 m
  rw [compareFloats_whole h, compareFloats_of_ofFloat? hfirst hsecond,
    hm.compare_eq hn hexact hown]

/-- Otherwise it equals another whole number. -/
theorem exists_compareFloats_ofInt (h : wholeFloat? x = some n)
    (hown : ¬ OwnDouble n.toInt.natAbs) :
    ∃ m : Int64, m ≠ n ∧ compareFloats (Float.ofInt m.toInt) x = some .eq := by
  obtain ⟨_, second, _, _, hsecond, hn, hexact⟩ := exists_of_wholeFloat? h
  obtain ⟨m, hne, hbound, hm⟩ := hn.exists_ne hexact hown
  have hle := natAbs_toInt_lt n
  have hwhole : (Int64.ofInt m).toInt = m := Int64.toInt_ofInt_of_le (by omega) (by omega)
  obtain ⟨first, hfirst, hfirst_rounds⟩ := exists_ofInt64 (Int64.ofInt m)
  rw [hwhole] at hfirst hfirst_rounds
  refine ⟨Int64.ofInt m, fun heq => hne ?_, ?_⟩
  · rw [← hwhole, heq]
  · rw [hwhole, compareFloats_whole h, compareFloats_of_ofFloat? hfirst hsecond,
      hfirst_rounds.unique hm, compare_eq_iff_eq.mpr rfl]

end MetricLayer.Value
