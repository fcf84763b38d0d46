import MetricLayer.Proofs.Context.ReadBack
import MetricLayer.Proofs.Decimal.WholeDoubles
import MetricLayer.Proofs.Json.DoubleTexts
import MetricLayer.Proofs.Value.Alike

/-!
# Values read back from their texts

In a key a whole double is written as the whole number that it stands for, and it is read back as
that number. Any other finite double is written with a point or an exponent and is read back as some
double, its digits scaled in floating point. All other values are read back as they are.
-/

namespace MetricLayer

open Decimal Decimal.Binary

namespace Decimal.Binary

variable {value : Binary} {x : Float} {n : Nat}

/-- A double that a whole number of 16 digits names is whole. -/
theorem Names.exists_wholeFloat? (h : ofFloat? x = some value) (hnames : value.Names n)
    (hlt : n ≤ 10 ^ 16) : ∃ whole, Value.wholeFloat? x = some whole := by
  obtain ⟨m, hm⟩ := hnames.exists_toInt?
  have hmagnitude := hnames.magnitude_le_double
  rw [magnitude_of_toRat (toRat_of_toInt? hm)] at hmagnitude
  have hle : m.natAbs ≤ 2 * n := by exact_mod_cast hmagnitude
  have hrange : -9223372036854775808 ≤ m ∧ m ≤ 9223372036854775807 := by omega
  refine ⟨Int64.ofInt m, ?_⟩
  rw [Value.wholeFloat?, h, Option.bind_eq_bind, Option.bind_some, hm, Option.bind_eq_bind,
    Option.bind_some, Value.int64?, if_pos hrange]

/-- Shortest digits with no place behind the point make a whole number of their length. -/
theorem exists_names_of_exponent_nonneg (hnormal : value.Normal) (hpositive : 0 < value.significand)
    {places : Nat} (hexponent : 0 ≤ (value.shortest .toEven).exponent)
    (hplaces : (value.shortest .toEven).exponent + digitCount (value.shortest .toEven).coefficient
      ≤ places) : ∃ n : ℕ, value.Names n ∧ n ≤ 10 ^ places := by
  obtain ⟨zeros, hzeros⟩ := Int.eq_ofNat_of_zero_le hexponent
  have hnames := names_shortest hnormal hpositive .toEven
  have hlt := lt_tenTo_digitCount (value.shortest .toEven).coefficient
  rw [hzeros] at hnames hplaces
  refine ⟨(value.shortest .toEven).coefficient * 10 ^ zeros, ?_, ?_⟩
  · rw [zpow_natCast] at hnames
    rw [Nat.cast_mul, Nat.cast_pow, Nat.cast_ofNat]
    exact hnames
  · calc (value.shortest .toEven).coefficient * 10 ^ zeros
        ≤ 10 ^ digitCount (value.shortest .toEven).coefficient * 10 ^ zeros :=
          Nat.mul_le_mul_right _ hlt.le
      _ = 10 ^ (digitCount (value.shortest .toEven).coefficient + zeros) := (pow_add _ _ _).symm
      _ ≤ 10 ^ places := Nat.pow_le_pow_right (by decide) (by omega)

/-- So a double that is not whole has digits behind the point. -/
theorem hasFraction_of_wholeFloat? (h : ofFloat? x = some value)
    (hwhole : Value.wholeFloat? x = none) : 0 < value.significand ∧ Json.HasFraction value := by
  have hnone : ∀ n : ℕ, value.Names n → ¬ n ≤ 10 ^ 16 := by
    intro n hnames hle
    obtain ⟨whole, hsome⟩ := hnames.exists_wholeFloat? h hle
    rw [hwhole] at hsome
    cases hsome
  have hpositive : 0 < value.significand := by
    refine Nat.pos_of_ne_zero fun hzero => hnone 0 ?_ (by norm_num)
    rw [Nat.cast_zero]
    exact names_zero hzero
  refine ⟨hpositive, fun hpositional => ?_⟩
  have hplaces : (value.shortest .toEven).exponent + (Json.shownDigits value).length ≤ 16 :=
    decide_eq_true_iff.mp (Bool.and_eq_true_iff.mp hpositional).2
  by_contra hexponent
  obtain ⟨n, hnames, hle⟩ := exists_names_of_exponent_nonneg (normal_of_ofFloat? h) hpositive
    (not_lt.mp hexponent) hplaces
  exact hnone n hnames hle

end Decimal.Binary

namespace Value

variable {value other : Value} {x : Float}

/-- What the text of the value in a key is read as. -/
def reread (value : Value) : Value :=
  ((Json.parse? value.canonical.toJson.compact).bind ofJson?).getD null

theorem ReadsAs.reread_eq (h : value.ReadsAs other) : value.reread = other := by
  rw [reread, Json.parse?_compact (h Json.maxDepth), Option.bind_some, ofJson?_toJson]
  rfl

/-- The ways in which values are read back. -/
inductive RereadAs : Value → Value → Prop where
  | same {value : Value} (h : value.FloatFree) : RereadAs value value
  | whole {x : Float} {n : Int64} (h : wholeFloat? x = some n) : RereadAs (float x) (int n)
  | double {x y : Float} {form : Binary} (hform : ofFloat? x = some form)
      (hwhole : wholeFloat? x = none) (hnumber : y.isNaN = false)
      (hexact : Json.FewDigits form → y = x) : RereadAs (float x) (float y)

/-- Every value but an infinity and a NaN is read back in one of these ways. -/
theorem exists_rereadAs (h : value.Finite) :
    ∃ other, RereadAs value other ∧ value.ReadsAs other := by
  by_cases hfree : value.FloatFree
  · exact ⟨value, .same hfree, readsAs_self hfree⟩
  · obtain ⟨x, rfl⟩ := exists_float hfree
    cases hwhole : wholeFloat? x with
    | some n =>
        have hcanonical : (float x).canonical = int n := by rw [canonical, hwhole]
        have hint : (int n).FloatFree := trivial
        refine ⟨int n, .whole hwhole, fun levels => ?_⟩
        rw [hcanonical, ← canonical_of_floatFree hint]
        exact readsAs_self hint levels
    | none =>
        have hcanonical : (float x).canonical = float x := by rw [canonical, hwhole]
        obtain ⟨form, hform⟩ := Option.isSome_iff_exists.mp h
        obtain ⟨hpositive, hfraction⟩ := hasFraction_of_wholeFloat? hform hwhole
        obtain ⟨y, hreads, hnumber, hexact⟩ :=
          Json.exists_readsAs_float hform hpositive hfraction
        refine ⟨float y, .double hform hwhole hnumber hexact, fun levels => ?_⟩
        rw [hcanonical]
        exact hreads levels

theorem readsAs_reread (h : value.Finite) : value.ReadsAs value.reread := by
  obtain ⟨other, _, hreads⟩ := exists_rereadAs h
  rw [hreads.reread_eq]
  exact hreads

theorem rereadAs_reread (h : value.Finite) : RereadAs value value.reread := by
  obtain ⟨other, hreread, hreads⟩ := exists_rereadAs h
  rw [hreads.reread_eq]
  exact hreread

theorem spelling_of_wholeFloat? {n : Int64} (h : wholeFloat? x = some n) :
    (float x).spelling = (int n).spelling := by
  rw [spelling, spelling, canonical, h]
  rfl

namespace RereadAs

theorem isNull_eq (h : RereadAs value other) : other.isNull = value.isNull := by
  cases h <;> rfl

/-- Cells are kept in one way just when the values are alike. -/
theorem keeps_eq_iff (h : RereadAs value other) :
    (∀ cell, value.keeps cell = other.keeps cell) ↔ value.Alike other := by
  cases h with
  | same => exact ⟨fun _ => alike_self value, fun _ _ => rfl⟩
  | whole hwhole => exact keeps_eq_iff_of_spelling (spelling_of_wholeFloat? hwhole)
  | double => exact floats_keeps_eq_iff

theorem compare?_eq_of_no_number (h : RereadAs value other) {cell : Value}
    (hcell : cell.number? = none) : cell.compare? value = cell.compare? other := by
  cases h with
  | same => rfl
  | whole hwhole =>
      exact compare?_eq_of_spelling_of_no_number (spelling_of_wholeFloat? hwhole) hcell
  | double => rw [compare?_float, compare?_float, hcell, Option.bind_none, Option.bind_none]

/-- What is read back is in an order with itself. -/
theorem compare?_self (h : RereadAs value other) (hnull : other.isNull = false) :
    other.compare? other = some .eq := by
  have hint : ∀ n : Int64, (int n).compare? (int n) = some .eq := fun n =>
    congrArg some (compare_eq_iff_eq.mpr rfl)
  cases h with
  | same hfree =>
      cases value with
      | null => cases hnull
      | bool truth => exact congrArg some (compare_eq_iff_eq.mpr rfl)
      | int n => exact hint n
      | float x => exact hfree.elim
      | string text =>
          change some (compareOfLessAndEq text text) = _
          simp [compareOfLessAndEq]
  | whole => exact hint _
  | @double x y form hform hwhole hnumber =>
      rcases beq_self_or_isNaN y with hself | hnan
      · exact (beq_iff_compareFloats y y).mp hself
      · rw [hnumber] at hnan
        cases hnan

end RereadAs

/-- A whole double has no neighbor among the whole numbers, and another one has few digits. -/
def Plain : Value → Prop
  | float x =>
      match wholeFloat? x with
      | some n => OwnDouble n.toInt.natAbs
      | none => ∃ form, ofFloat? x = some form ∧ Json.FewDigits form
  | _ => True

theorem Plain.alike (hplain : value.Plain) (h : RereadAs value other) : value.Alike other := by
  cases h with
  | same => exact alike_self value
  | whole hwhole =>
      rw [Plain, hwhole] at hplain
      exact hplain
  | double hform hwhole hnumber hexact =>
      rw [Plain, hwhole] at hplain
      obtain ⟨form, hform', hfew⟩ := hplain
      obtain rfl := Option.some.inj (hform.symm.trans hform')
      rw [hexact hfew]
      exact alike_self _

theorem Plain.compare?_eq (hplain : value.Plain) (h : RereadAs value other) (cell : Value) :
    cell.compare? value = cell.compare? other := by
  have halike := hplain.alike h
  cases h with
  | same => rfl
  | whole hwhole =>
      exact compare?_eq_of_spelling (spelling_of_wholeFloat? hwhole) (.inl halike) cell
  | double =>
      rw [compare?_float, compare?_float]
      congr 1
      funext z
      exact compareFloats_of_alike halike z

end Value

end MetricLayer
