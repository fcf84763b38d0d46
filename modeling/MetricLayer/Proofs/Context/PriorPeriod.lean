import MetricLayer.Proofs.Context.Interchange
import MetricLayer.Proofs.Context.Steps

/-!
# Years moved back

Prior period moves the year of a context back by one. A cell is in the year that has been moved just
when the one after it is in the year as it was, as long as neither is at the end of the whole
numbers. A year that holds anything that cannot be moved stays as it is, all of it: no bound is
dropped and no range moves by half.
-/

namespace MetricLayer

namespace Value

/-- Only numbers move, and the least whole number has none before it. -/
def Immovable : Value → Prop
  | int n => n = Int64.minValue
  | float _ => False
  | _ => True

def AboveLeast : Value → Prop
  | int n => n ≠ Int64.minValue
  | _ => False

theorem int64?_eq_none_iff (n : Int) :
    int64? n = none ↔ ¬ (-9223372036854775808 ≤ n ∧ n ≤ 9223372036854775807) := by
  rw [int64?]
  split <;> simp_all

theorem least_lt_toInt {n : Int64} (h : n ≠ Int64.minValue) : -9223372036854775808 < n.toInt := by
  have hlow := n.minValue_le_toInt
  have hne : n.toInt ≠ Int64.minValue.toInt := fun heq => h (Int64.toInt_inj.mp heq)
  rw [Int64.toInt_minValue] at hlow hne
  omega

theorem offset?_eq_none_iff (value : Value) : value.offset? (-1) = none ↔ value.Immovable := by
  cases value with
  | int n =>
      have hhigh := n.toInt_lt
      rw [offset?, Option.map_eq_none_iff, int64?_eq_none_iff,
        show (-1 : Int64).toInt = -1 from rfl, Immovable]
      constructor
      · intro h
        by_contra hne
        have hlow := least_lt_toInt hne
        omega
      · rintro rfl
        rw [Int64.toInt_minValue]
        omega
  | float x => simp [offset?, Immovable]
  | _ => exact iff_of_true rfl trivial

theorem toInt_add_one {n : Int64} (h : n < Int64.maxValue) : (n + 1).toInt = n.toInt + 1 := by
  have hhigh : n.toInt < 9223372036854775807 := Int64.lt_iff_toInt_lt.mp h
  have hlow := n.le_toInt
  rw [Int64.toInt_add, show (1 : Int64).toInt = 1 from rfl]
  exact Int.bmod_eq_of_le (by omega) (by omega)

/-- A whole number one step back is to a cell as the number is to the cell after it. -/
theorem AboveLeast.exists_offset? {value : Value} (h : value.AboveLeast) :
    ∃ moved, value.offset? (-1) = some moved ∧ ∀ cell : Int64, cell < Int64.maxValue →
      (int cell).compare? moved = (int (cell + 1)).compare? value ∧
        (int cell == moved) = (int (cell + 1) == value) := by
  cases value with
  | int n =>
      have hlow := least_lt_toInt h
      have hhigh := n.toInt_lt
      have hwithin : -9223372036854775808 ≤ n.toInt - 1 ∧ n.toInt - 1 ≤ 9223372036854775807 := by
        omega
      have hmoved : int64? (n.toInt + (-1 : Int64).toInt) = some (Int64.ofInt (n.toInt - 1)) :=
        if_pos hwithin
      have htoInt : (Int64.ofInt (n.toInt - 1)).toInt = n.toInt - 1 :=
        Int64.toInt_ofInt_of_le (by omega) (by omega)
      refine ⟨int (Int64.ofInt (n.toInt - 1)), by rw [offset?, hmoved, Option.map_some],
        fun cell hcell => ⟨?_, ?_⟩⟩
      · rw [compare?, compare?, htoInt, toInt_add_one hcell]
        refine congrArg some ?_
        rcases lt_trichotomy cell.toInt (n.toInt - 1) with hless | hequal | hmore
        · rw [compare_lt_iff_lt.mpr hless, compare_lt_iff_lt.mpr (by omega)]
        · rw [compare_eq_iff_eq.mpr hequal, compare_eq_iff_eq.mpr (by omega)]
        · rw [compare_gt_iff_gt.mpr hmore, compare_gt_iff_gt.mpr (by omega)]
      · change (cell == Int64.ofInt (n.toInt - 1)) = (cell + 1 == n)
        rw [Bool.eq_iff_iff, beq_iff_eq, beq_iff_eq, ← Int64.toInt_inj, ← Int64.toInt_inj, htoInt,
          toInt_add_one hcell]
        omega
  | _ => exact h.elim

end Value

namespace Range

variable {bounds : Range}

def Immovable (bounds : Range) : Prop :=
  ∃ bound value, bounds.get? bound = some value ∧ value.Immovable

def AboveLeast (bounds : Range) : Prop :=
  ∀ bound value, bounds.get? bound = some value → value.AboveLeast

def SameBounds (bounds others : Range) : Prop :=
  ∀ bound, (bounds.get? bound).isSome = (others.get? bound).isSome

theorem boundCount_eq (bounds : Range) :
    bounds.boundCount = (Bound.all.filter fun bound => (bounds.get? bound).isSome).length := by
  rw [boundCount, Range.bounds, List.length_filterMap_eq_countP, List.countP_eq_length_filter]
  simp only [Option.isSome_map]

/-- Bounds are counted to see whether all of them can be mapped. -/
theorem boundCount_mapBounds_eq_iff (f : Value → Option Value) (bounds : Range) :
    (bounds.mapBounds f).boundCount = bounds.boundCount ↔
      (bounds.mapBounds f).SameBounds bounds := by
  have hfewer : ∀ bound, ((bounds.mapBounds f).get? bound).isSome = true →
      (bounds.get? bound).isSome = true := by
    intro bound h
    rw [get?_mapBounds] at h
    exact Option.isSome_of_isSome_bind h
  rw [boundCount_eq, boundCount_eq]
  constructor
  · intro hcount bound
    have hsame := (List.monotone_filter_right Bound.all hfewer).eq_of_length hcount
    have hmem := iff_of_eq (congrArg (bound ∈ ·) hsame)
    simp only [List.mem_filter, Bound.mem_all, true_and] at hmem
    exact Bool.eq_iff_iff.mpr hmem
  · intro hsame
    rw [List.filter_congr fun bound _ => hsame bound]

theorem sameBounds_mapBounds_iff (bounds : Range) :
    (bounds.mapBounds (Value.offset? (-1))).SameBounds bounds ↔ ¬ bounds.Immovable := by
  simp only [SameBounds, Immovable, get?_mapBounds, ← Value.offset?_eq_none_iff, not_exists,
    not_and]
  refine forall_congr' fun bound => ?_
  cases bounds.get? bound with
  | none => simp
  | some value => simp [Option.isSome_iff_ne_none]

theorem AboveLeast.not_immovable (h : bounds.AboveLeast) : ¬ bounds.Immovable := by
  rintro ⟨bound, value, hvalue, hstuck⟩
  have habove := h bound value hvalue
  cases value with
  | int n => exact habove hstuck
  | _ => exact habove

/-- Whole numbers are within a range that was moved just when the next ones were within it. -/
theorem AboveLeast.holds_mapBounds_iff (h : bounds.AboveLeast) {cell : Int64}
    (hcell : cell < Int64.maxValue) :
    (bounds.mapBounds (Value.offset? (-1))).holds (.int cell) = true ↔
      bounds.holds (.int (cell + 1)) = true := by
  rw [holds_iff, holds_iff]
  constructor
  · intro hholds bound value hvalue
    obtain ⟨moved, hmoved, horder⟩ := (h bound value hvalue).exists_offset?
    rw [← (horder cell hcell).1]
    exact hholds bound moved (by rw [get?_mapBounds, hvalue, Option.bind_eq_bind, Option.bind_some,
      hmoved])
  · intro hholds bound moved hmoved
    rw [get?_mapBounds] at hmoved
    obtain ⟨value, hvalue, hmoved⟩ := Option.bind_eq_some_iff.mp hmoved
    obtain ⟨other, hother, horder⟩ := (h bound value hvalue).exists_offset?
    obtain rfl := Option.some.inj (hmoved.symm.trans hother)
    rw [(horder cell hcell).1]
    exact hholds bound value hvalue

end Range

namespace Filter

variable {filter previous : Filter}

def Immovable : Filter → Prop
  | equals value => value.Immovable
  | range bounds => bounds.Immovable

/-- All values that the filter compares with are whole numbers with one before them. -/
def AboveLeast : Filter → Prop
  | equals value => value.AboveLeast
  | range bounds => bounds.AboveLeast

/-- Both filters ask for one value, or both are ranges with the same bounds present. -/
def SameShape : Filter → Filter → Prop
  | equals _, equals _ => True
  | range bounds, range others => bounds.SameBounds others
  | _, _ => False

theorem sameShape_self (filter : Filter) : filter.SameShape filter := by
  cases filter with
  | equals value => trivial
  | range bounds => exact fun bound => rfl

theorem previous?_range (bounds : Range) :
    (range bounds).previous? =
      if (bounds.mapBounds (Value.offset? (-1))).boundCount = bounds.boundCount then
        some (range (bounds.mapBounds (Value.offset? (-1))))
      else none := rfl

theorem Immovable.previous?_eq_none (h : filter.Immovable) : filter.previous? = none := by
  cases filter with
  | equals value =>
      rw [previous?, (Value.offset?_eq_none_iff value).mpr h, Option.map_none]
  | range bounds =>
      rw [previous?_range, if_neg]
      rw [Range.boundCount_mapBounds_eq_iff, Range.sameBounds_mapBounds_iff]
      exact not_not_intro h

theorem sameShape_previous? (h : filter.previous? = some previous) :
    filter.SameShape previous := by
  cases filter with
  | equals value =>
      obtain ⟨moved, -, rfl⟩ := Option.map_eq_some_iff.mp h
      trivial
  | range bounds =>
      rw [previous?_range] at h
      split at h
      · rename_i hcount
        obtain rfl := Option.some.inj h
        exact fun bound => ((Range.boundCount_mapBounds_eq_iff _ bounds).mp hcount bound).symm
      · cases h

theorem AboveLeast.exists_previous? (h : filter.AboveLeast) :
    ∃ previous, filter.previous? = some previous ∧ ∀ cell : Int64, cell < Int64.maxValue →
      (previous.holds (.int cell) = true ↔ filter.holds (.int (cell + 1)) = true) := by
  cases filter with
  | equals value =>
      obtain ⟨moved, hmoved, horder⟩ := Value.AboveLeast.exists_offset? h
      refine ⟨equals moved, by rw [previous?, hmoved, Option.map_some], fun cell hcell => ?_⟩
      rw [holds, holds, (horder cell hcell).2]
  | range bounds =>
      have hbounds : bounds.AboveLeast := h
      refine ⟨range (bounds.mapBounds (Value.offset? (-1))), ?_,
        fun cell hcell => hbounds.holds_mapBounds_iff hcell⟩
      rw [previous?_range, if_pos]
      rw [Range.boundCount_mapBounds_eq_iff, Range.sameBounds_mapBounds_iff]
      exact hbounds.not_immovable

end Filter

namespace Context

/-- **Prior period moves the year and loses nothing of it.** Without a year, or with one that cannot
be moved as a whole, the context stays as it is. The year keeps its shape in any case, and if all of
its values are whole numbers above the least one, it holds a whole number afterwards just when it
held the next one before. No other dimension is touched. -/
theorem priorPeriod_moves_year (keys : TimeKeys) (context : Context) :
    (context.get? keys.year = none → priorPeriod keys context = context) ∧
      (∀ year, context.get? keys.year = some year →
        (year.Immovable → priorPeriod keys context = context) ∧
          ∃ prior, (priorPeriod keys context).get? keys.year = some prior ∧ year.SameShape prior ∧
            (year.AboveLeast → ∀ cell : Int64, cell < Int64.maxValue →
              (prior.holds (.int cell) = true ↔ year.holds (.int (cell + 1)) = true))) ∧
        ∀ dimension, dimension ≠ keys.year →
          (priorPeriod keys context).get? dimension = context.get? dimension := by
  rw [priorPeriod_eq_stepped]
  refine ⟨stepped_of_get?_none, fun year hyear => ⟨fun hstuck => ?_, ?_⟩,
    fun dimension hdimension => get?_stepped_of_ne _ context hdimension⟩
  · refine stepped_of_eq_none ?_
    rw [hyear, Option.bind_some, hstuck.previous?_eq_none]
  · refine ⟨year.previous?.getD year, by rw [get?_stepped, hyear, Option.map_some], ?_, ?_⟩
    · cases hprevious : year.previous? with
      | none => exact year.sameShape_self
      | some prior => exact Filter.sameShape_previous? hprevious
    · intro habove
      obtain ⟨prior, hprior, hholds⟩ := habove.exists_previous?
      rw [hprior, Option.getD_some]
      exact hholds

/-- The years from the start on until 2025, in March. -/
def yearsUntil2025 (start : Value) : Context :=
  (KeyMap.empty.insert "year" (.range (.between start (.int 2025)))).insert "month"
    (.equals (.int 3))

theorem priorPeriod_moves_year_yearsUntil2025 :
    (∃ prior, (priorPeriod .standard (yearsUntil2025 (.int 2024))).get? "year" = some prior ∧
        (Filter.range (.between (.int 2024) (.int 2025))).SameShape prior ∧
        ∀ cell : Int64, cell < Int64.maxValue → (prior.holds (.int cell) = true ↔
          (Filter.range (.between (.int 2024) (.int 2025))).holds (.int (cell + 1)) = true)) ∧
      priorPeriod .standard (yearsUntil2025 (.int Int64.minValue)) =
        yearsUntil2025 (.int Int64.minValue) := by
  have hyear : ∀ start : Value, (yearsUntil2025 start).get? "year" =
      some (.range (.between start (.int 2025))) := fun start => rfl
  have habove : (Filter.range (.between (.int 2024) (.int 2025))).AboveLeast := by
    intro bound value hvalue
    cases bound with
    | start =>
        obtain rfl := Option.some.inj hvalue
        exact (by decide : (2024 : Int64) ≠ Int64.minValue)
    | stop =>
        obtain rfl := Option.some.inj hvalue
        exact (by decide : (2025 : Int64) ≠ Int64.minValue)
    | _ => cases hvalue
  obtain ⟨-, hmoves, -⟩ := priorPeriod_moves_year .standard (yearsUntil2025 (.int 2024))
  obtain ⟨-, prior, hprior, hshape, hcells⟩ := hmoves _ (hyear _)
  obtain ⟨-, hstays, -⟩ := priorPeriod_moves_year .standard (yearsUntil2025 (.int Int64.minValue))
  exact ⟨⟨prior, hprior, hshape, hcells habove⟩, (hstays _ (hyear _)).1 ⟨.start, _, rfl, rfl⟩⟩

end Context

end MetricLayer
