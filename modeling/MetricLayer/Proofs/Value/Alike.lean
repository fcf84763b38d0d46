import MetricLayer.Proofs.Context.Key
import MetricLayer.Proofs.Decimal.JsonText
import MetricLayer.Proofs.Value.Order

/-!
# Values of one spelling

Values of one spelling are the same, or they are doubles that stand for one whole number or for none
at all: a double that is not finite is spelled like null. What such values have in common is decided
by comparing cells with them.
-/

namespace MetricLayer.Value

open Decimal Decimal.Binary

/-- The ways in which two values come to one spelling. -/
inductive Confused : Value → Value → Prop where
  | same (value : Value) : Confused value value
  | whole {n : Int64} {x : Float} (h : wholeFloat? x = some n) : Confused (int n) (float x)
  | wholes {n : Int64} {x y : Float} (hx : wholeFloat? x = some n) (hy : wholeFloat? y = some n) :
      Confused (float x) (float y)
  | absent {x : Float} (h : isFinite x = false) : Confused null (float x)
  | unbounded {x y : Float} (hx : isFinite x = false) (hy : isFinite y = false) :
      Confused (float x) (float y)

theorem spelling_float {x : Float} (h : wholeFloat? x = none) :
    (float x).spelling = .word (Json.writeFloat x) := by
  rw [spelling, canonical, h]
  rfl

/-- The value without a fraction or exponent that is spelled like this one. -/
def plain? : Value → Option Value
  | float x =>
      match wholeFloat? x with
      | some n => some (int n)
      | none => if isFinite x then none else some null
  | value => some value

/-- The text of a finite double is spelled like no value without a fraction or exponent. -/
theorem ofSpelling?_writeFloat {x : Float} (h : isFinite x = true) :
    ofSpelling? (.word (Json.writeFloat x)) = none := by
  rw [isFinite] at h
  obtain ⟨form, hform⟩ := Option.isSome_iff_exists.mp h
  rw [ofSpelling?, if_neg (writeFloat_ne hform rfl (by decide)),
    if_neg (writeFloat_ne hform rfl (by decide)), if_neg (writeFloat_ne hform rfl (by decide)),
    readInt?_writeFloat hform]
  rfl

theorem ofSpelling?_spelling_eq_plain? (value : Value) :
    ofSpelling? value.spelling = value.plain? := by
  cases value with
  | float x =>
      cases hwhole : wholeFloat? x with
      | some n =>
          have hspelling : (float x).spelling = (int n).spelling := by
            rw [spelling, spelling, canonical, hwhole]
            rfl
          have hfree : (int n).FloatFree := trivial
          rw [hspelling, ofSpelling?_spelling hfree, plain?, hwhole]
      | none =>
          rw [spelling_float hwhole, plain?, hwhole]
          cases hfinite : isFinite x with
          | true => exact ofSpelling?_writeFloat hfinite
          | false =>
              rw [writeFloat_of_not_finite hfinite]
              rfl
  | null => exact ofSpelling?_spelling trivial
  | bool value => exact ofSpelling?_spelling trivial
  | int n => exact ofSpelling?_spelling trivial
  | string text => exact ofSpelling?_spelling trivial

theorem plain?_of_floatFree {value : Value} (h : value.FloatFree) : value.plain? = some value := by
  cases value with
  | float x => exact h.elim
  | _ => rfl

theorem exists_float {value : Value} (h : ¬ value.FloatFree) : ∃ x, value = float x := by
  cases value with
  | float x => exact ⟨x, rfl⟩
  | _ => exact absurd trivial h

theorem confused_float_of_plain? {value : Value} {x : Float} (hvalue : value.plain? = some value)
    (h : value.plain? = (float x).plain?) : Confused value (float x) := by
  rw [hvalue, plain?] at h
  split at h
  · rename_i n hwhole
    rw [Option.some.inj h]
    exact .whole hwhole
  · split at h
    · cases h
    · rename_i hfinite
      rw [Option.some.inj h]
      exact .absent (Bool.eq_false_iff.mpr hfinite)

theorem confused_floats {x y : Float} (h : (float x).spelling = (float y).spelling) :
    Confused (float x) (float y) := by
  have hplain : (float x).plain? = (float y).plain? := by
    rw [← ofSpelling?_spelling_eq_plain?, h, ofSpelling?_spelling_eq_plain?]
  rw [plain?, plain?] at hplain
  cases hx : wholeFloat? x with
  | some n =>
      rw [hx] at hplain
      cases hy : wholeFloat? y with
      | some m =>
          rw [hy] at hplain
          injection hplain with hplain
          injection hplain with hplain
          rw [hplain] at hx
          exact .wholes hx hy
      | none =>
          rw [hy] at hplain
          dsimp only at hplain
          split at hplain <;> cases hplain
  | none =>
      rw [hx] at hplain
      cases hy : wholeFloat? y with
      | some m =>
          rw [hy] at hplain
          dsimp only at hplain
          split at hplain <;> cases hplain
      | none =>
          rw [hy] at hplain
          cases hfinite : isFinite x <;> cases hfinite' : isFinite y
          · exact .unbounded hfinite hfinite'
          · rw [hfinite, hfinite'] at hplain
            cases hplain
          · rw [hfinite, hfinite'] at hplain
            cases hplain
          · rw [isFinite] at hfinite hfinite'
            obtain ⟨form, hform⟩ := Option.isSome_iff_exists.mp hfinite
            obtain ⟨form', hform'⟩ := Option.isSome_iff_exists.mp hfinite'
            rw [spelling_float hx, spelling_float hy] at h
            rw [writeFloat_inj hform hform' (Json.Spelling.word.inj h)]
            exact .same _

theorem confused_of_spelling {first second : Value} (h : first.spelling = second.spelling) :
    Confused first second ∨ Confused second first := by
  have hplain : first.plain? = second.plain? := by
    rw [← ofSpelling?_spelling_eq_plain?, h, ofSpelling?_spelling_eq_plain?]
  by_cases hfirst : first.FloatFree
  · by_cases hsecond : second.FloatFree
    · rw [spelling_inj hfirst hsecond h]
      exact .inl (.same _)
    · obtain ⟨x, rfl⟩ := exists_float hsecond
      exact .inl (confused_float_of_plain? (plain?_of_floatFree hfirst) hplain)
  · obtain ⟨x, rfl⟩ := exists_float hfirst
    by_cases hsecond : second.FloatFree
    · exact .inr (confused_float_of_plain? (plain?_of_floatFree hsecond) hplain.symm)
    · obtain ⟨y, rfl⟩ := exists_float hsecond
      exact .inl (confused_floats h)

/-- The value is not a NaN and not infinite. -/
def Finite : Value → Prop
  | float x => Decimal.isFinite x = true
  | _ => True

theorem isNull_iff {value : Value} : value.isNull = true ↔ value = null := by
  cases value with
  | null => exact iff_of_true rfl rfl
  | _ => exact iff_of_false Bool.false_ne_true (by simp)

/-- Cells that equal one of the values equal the other, provided that these have one spelling. -/
def Alike : Value → Value → Prop
  | int n, float _ => OwnDouble n.toInt.natAbs
  | float _, int n => OwnDouble n.toInt.natAbs
  | float x, float y => (x == y) = true ∨ x.isNaN = true ∧ y.isNaN = true
  | null, float _ => False
  | float _, null => False
  | _, _ => True

/-- Nothing is in an order with the value, so a range that it bounds holds nothing. -/
def Unordered : Value → Prop
  | null => True
  | float x => x.isNaN = true
  | _ => False

/-- Cells are in the same order with both values, provided that these have one spelling. -/
def AlikeBound (first second : Value) : Prop :=
  first.Alike second ∨ first.Unordered ∧ second.Unordered

theorem compare?_null (cell : Value) : cell.compare? null = none := by
  cases cell <;> rfl

theorem compare?_float (cell : Value) (x : Float) :
    cell.compare? (float x) = cell.number?.bind fun y => compareFloats y x := by
  cases cell <;> rfl

theorem beq_self_or_isNaN (x : Float) : (x == x) = true ∨ x.isNaN = true := by
  by_cases hnan : x = Float.nan
  · right
    rw [Float.isNaN_eq_decide_eq_nan, decide_eq_true hnan]
  · exact .inl (Float.beq_self_iff.mpr hnan)

theorem alike_self (value : Value) : value.Alike value := by
  cases value with
  | float x =>
      rcases beq_self_or_isNaN x with heq | hnan
      · exact .inl heq
      · exact .inr ⟨hnan, hnan⟩
  | _ => trivial

theorem alike_wholes {n : Int64} {x y : Float} (hx : wholeFloat? x = some n)
    (hy : wholeFloat? y = some n) : (float x).Alike (float y) := by
  left
  obtain ⟨first, _, hfirst, hexact, _⟩ := exists_of_wholeFloat? hx
  obtain ⟨second, _, hsecond, hexact', _⟩ := exists_of_wholeFloat? hy
  rw [beq_iff_compareFloats, compareFloats_of_ofFloat? hfirst hsecond, hexact, hexact',
    compare_eq_iff_eq.mpr rfl]

theorem Alike.symm {first second : Value} (h : first.Alike second) : second.Alike first := by
  cases first with
  | float x =>
      cases second with
      | float y =>
          rcases h with heq | hnan
          · exact .inl (BEq.symm heq)
          · exact .inr hnan.symm
      | int n => exact h
      | null => exact h
      | bool value => trivial
      | string text => trivial
  | null => cases second <;> exact h
  | int n => cases second <;> exact h
  | bool value => cases second <;> trivial
  | string text => cases second <;> trivial

theorem AlikeBound.symm {first second : Value} (h : first.AlikeBound second) :
    second.AlikeBound first := h.imp Alike.symm And.symm

theorem compareFloats_of_alike {x y : Float} (h : (float x).Alike (float y)) (z : Float) :
    compareFloats z x = compareFloats z y := by
  rcases h with heq | ⟨hx, hy⟩
  · exact compareFloats_congr ((beq_iff_compareFloats x y).mp heq) z
  · rw [compareFloats_nan hx, compareFloats_nan hy]

theorem compare?_of_unordered {value : Value} (h : value.Unordered) (cell : Value) :
    cell.compare? value = none := by
  cases value with
  | null => exact compare?_null cell
  | float x =>
      rw [compare?_float]
      cases cell.number? with
      | none => rfl
      | some y => exact compareFloats_nan h y
  | bool value => exact h.elim
  | int n => exact h.elim
  | string text => exact h.elim

/-- Values that are no numbers have no order with either. -/
theorem Confused.compare?_eq_of_no_number {first second : Value} (h : Confused first second)
    {cell : Value} (hcell : cell.number? = none) : cell.compare? first = cell.compare? second := by
  have hint : ∀ n, cell.compare? (int n) = none := by
    intro n
    cases cell with
    | int m => cases hcell
    | float y => cases hcell
    | _ => rfl
  cases h with
  | same => rfl
  | whole => rw [hint, compare?_float, hcell, Option.bind_none]
  | wholes => rw [compare?_float, compare?_float, hcell, Option.bind_none, Option.bind_none]
  | absent => rw [compare?_null, compare?_float, hcell, Option.bind_none]
  | unbounded => rw [compare?_float, compare?_float, hcell, Option.bind_none, Option.bind_none]

/-- Cells are in the same order with values that are alike as bounds. -/
theorem Confused.compare?_eq {first second : Value} (h : Confused first second)
    (hbound : first.AlikeBound second) (cell : Value) :
    cell.compare? first = cell.compare? second := by
  have hfloats : ∀ {x y : Float}, (float x).Alike (float y) →
      cell.compare? (float x) = cell.compare? (float y) := by
    intro x y halike
    rw [compare?_float, compare?_float]
    congr 1
    funext z
    exact compareFloats_of_alike halike z
  rcases hbound with halike | ⟨hfirst, hsecond⟩
  · cases h with
    | same => rfl
    | @whole n x hwhole =>
        cases cell with
        | int m =>
            have hwholes : (int m).compare? (int n) = some (compare m.toInt n.toInt) := rfl
            rw [hwholes, compare?_float, number?, Option.bind_some,
              compareFloats_ofInt hwhole halike]
        | float y => exact (compareFloats_whole hwhole y).symm
        | null => exact compare?_eq_of_no_number (.whole hwhole) rfl
        | bool value => exact compare?_eq_of_no_number (.whole hwhole) rfl
        | string text => exact compare?_eq_of_no_number (.whole hwhole) rfl
    | wholes hx hy => exact hfloats (alike_wholes hx hy)
    | absent => exact halike.elim
    | unbounded => exact hfloats halike
  · rw [compare?_of_unordered hfirst, compare?_of_unordered hsecond]

/-- Being equal to a value other than null is a matter of order. -/
theorem equals_iff_compare? (cell : Value) {value : Value} (h : value.isNull = false) :
    (cell == value) = true ↔ cell.compare? value = some .eq := by
  cases value with
  | null => cases h
  | bool second =>
      cases cell with
      | bool first => cases first <;> cases second <;> decide
      | _ => exact iff_of_false Bool.false_ne_true nofun
  | string second =>
      cases cell with
      | string first =>
          have hsame : compareOfLessAndEq first second = .eq ↔ first = second := by
            rw [compareOfLessAndEq]
            by_cases heq : first = second
            · rw [heq, if_neg (String.lt_irrefl second), if_pos rfl]
              exact iff_of_true rfl rfl
            · rw [if_neg heq]
              split <;> exact iff_of_false nofun heq
          change (first == second) = true ↔ some (compareOfLessAndEq first second) = some .eq
          rw [beq_iff_eq, Option.some_inj, hsame]
      | _ => exact iff_of_false Bool.false_ne_true nofun
  | int n =>
      cases cell with
      | int m =>
          have hwhole : compare m.toInt n.toInt = .eq ↔ m = n := by
            rw [compare_eq_iff_eq]
            exact Int64.toInt_inj
          change (m == n) = true ↔ some (compare m.toInt n.toInt) = some .eq
          rw [beq_iff_eq, Option.some_inj, hwhole]
      | float y => exact beq_iff_compareFloats y _
      | _ => exact iff_of_false Bool.false_ne_true nofun
  | float x =>
      cases cell with
      | int m => exact beq_iff_compareFloats _ x
      | float y => exact beq_iff_compareFloats y x
      | _ => exact iff_of_false Bool.false_ne_true nofun

/-- The cell is kept by a filter that asks for the value: null asks for nothing. -/
def keeps (value cell : Value) : Bool := value.isNull || cell == value

theorem keeps_of_number {value : Value} (h : value.number?.isSome = true) (cell : Value) :
    value.keeps cell = decide (cell.compare? value = some .eq) := by
  have hnull : value.isNull = false := by
    cases value with
    | null => cases h
    | _ => rfl
  rw [keeps, hnull, Bool.false_or, Bool.eq_iff_iff, decide_eq_true_iff,
    equals_iff_compare? cell hnull]

/-- Doubles keep the same cells just when they are equal or both NaNs. -/
theorem floats_keeps_eq_iff {x y : Float} :
    (∀ cell, (float x).keeps cell = (float y).keeps cell) ↔ (float x).Alike (float y) := by
  constructor
  · intro hkeeps
    rcases beq_self_or_isNaN x with hself | hnan
    · have hcell := hkeeps (float x)
      have hkept : (float x).compare? (float x) = some .eq :=
        (beq_iff_compareFloats x x).mp hself
      rw [keeps_of_number rfl, keeps_of_number rfl, hkept, decide_eq_true rfl, eq_comm,
        decide_eq_true_iff] at hcell
      exact .inl ((beq_iff_compareFloats x y).mpr hcell)
    · rcases beq_self_or_isNaN y with hself | hnan'
      · have hcell := hkeeps (float y)
        have hkept : (float y).compare? (float y) = some .eq :=
          (beq_iff_compareFloats y y).mp hself
        have hnone : (float y).compare? (float x) = none := compareFloats_nan hnan y
        rw [keeps_of_number rfl, keeps_of_number rfl, hkept, hnone] at hcell
        cases hcell
      · exact .inr ⟨hnan, hnan'⟩
  · intro halike cell
    have hcompare : cell.compare? (float x) = cell.compare? (float y) := by
      rw [compare?_float, compare?_float]
      congr 1
      funext z
      exact compareFloats_of_alike halike z
    rw [keeps_of_number rfl, keeps_of_number rfl, hcompare]

/-- Cells are kept in one way by values that are alike, and by no others of one spelling. -/
theorem Confused.keeps_eq_iff {first second : Value} (h : Confused first second) :
    (∀ cell, first.keeps cell = second.keeps cell) ↔ first.Alike second := by
  constructor
  · intro hkeeps
    cases h with
    | same => exact alike_self first
    | @whole n x hwhole =>
        by_contra hown
        obtain ⟨m, hne, hcompare⟩ := exists_compareFloats_ofInt hwhole hown
        have hcell := hkeeps (int m)
        have hkept : (int m).compare? (float x) = some .eq := hcompare
        rw [keeps_of_number rfl, keeps_of_number rfl, hkept, decide_eq_true rfl,
          decide_eq_true_iff] at hcell
        have hsame : m.toInt = n.toInt := compare_eq_iff_eq.mp (Option.some.inj hcell)
        exact hne (Int64.toInt_inj.mp hsame)
    | wholes hx hy => exact alike_wholes hx hy
    | @absent x =>
        have hcell := hkeeps null
        rw [@keeps_of_number (float x) rfl null] at hcell
        cases hcell
    | unbounded => exact floats_keeps_eq_iff.mp hkeeps
  · intro halike cell
    have hnumbers : first.number?.isSome = true → second.number?.isSome = true →
        first.keeps cell = second.keeps cell := by
      intro hfirst hsecond
      rw [keeps_of_number hfirst, keeps_of_number hsecond, h.compare?_eq (.inl halike)]
    cases h with
    | same => rfl
    | whole => exact hnumbers rfl rfl
    | wholes => exact hnumbers rfl rfl
    | absent => exact halike.elim
    | unbounded => exact hnumbers rfl rfl

section Spellings

variable {first second : Value}

theorem keeps_eq_iff_of_spelling (h : first.spelling = second.spelling) :
    (∀ cell, first.keeps cell = second.keeps cell) ↔ first.Alike second := by
  rcases confused_of_spelling h with hconfused | hconfused
  · exact hconfused.keeps_eq_iff
  · constructor
    · intro hkeeps
      exact (hconfused.keeps_eq_iff.mp fun cell => (hkeeps cell).symm).symm
    · intro halike cell
      exact (hconfused.keeps_eq_iff.mpr halike.symm cell).symm

theorem compare?_eq_of_spelling (h : first.spelling = second.spelling)
    (hbound : first.AlikeBound second) (cell : Value) :
    cell.compare? first = cell.compare? second := by
  rcases confused_of_spelling h with hconfused | hconfused
  · exact hconfused.compare?_eq hbound cell
  · exact (hconfused.compare?_eq hbound.symm cell).symm

theorem compare?_eq_of_spelling_of_no_number (h : first.spelling = second.spelling) {cell : Value}
    (hcell : cell.number? = none) : cell.compare? first = cell.compare? second := by
  rcases confused_of_spelling h with hconfused | hconfused
  · exact hconfused.compare?_eq_of_no_number hcell
  · exact (hconfused.compare?_eq_of_no_number hcell).symm

end Spellings

end MetricLayer.Value
