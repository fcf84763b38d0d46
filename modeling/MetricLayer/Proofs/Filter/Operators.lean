import MetricLayer.Proofs.Context.Interchange

/-!
# Operators of filters

Equality is decided by the values and a bound by their order. Still the operators fit together as
in a total order, whatever the kinds of the cell and the value: an inclusive bound is an exclusive
one or equality, an interval from a value to itself is equality, and no cell is on both sides of a
value. A range is the conjunction of its bounds.
-/

namespace MetricLayer

variable {cell value : Value}

namespace Range

/-- The range with this bound and no other. -/
def single (bound : Bound) (limit : Value) : Range :=
  ofBounds fun other => if other = bound then some limit else none

theorem get?_single (bound : Bound) (limit : Value) (other : Bound) :
    (single bound limit).get? other = if other = bound then some limit else none :=
  get?_ofBounds _ other

theorem holds_single (bound : Bound) (limit cell : Value) :
    (single bound limit).holds cell = (cell.compare? limit).any bound.accepts := by
  rw [Bool.eq_iff_iff, holds_iff]
  constructor
  · intro h
    exact h bound limit (by rw [get?_single, if_pos rfl])
  · intro h other value hvalue
    rw [get?_single] at hvalue
    split at hvalue
    · rename_i hother
      obtain rfl := Option.some.inj hvalue
      rwa [hother]
    · cases hvalue

/-- A range holds what all of its bounds hold one by one. -/
theorem holds_iff_single (range : Range) (cell : Value) :
    range.holds cell = true ↔
      ∀ bound limit, range.get? bound = some limit → (single bound limit).holds cell = true := by
  simp only [holds_iff, holds_single]

theorem holds_between (first last cell : Value) :
    (between first last).holds cell =
      ((single .start first).holds cell && (single .stop last).holds cell) := by
  rw [holds_single, holds_single]
  exact congrArg (_ && ·) (Bool.and_true _)

end Range

namespace Filter

theorem holds_equals (h : value.isNull = false) :
    (equals value).holds cell = (cell.compare? value).any (· == .eq) := by
  rw [Bool.eq_iff_iff]
  refine (Value.equals_iff_compare? cell h).trans ?_
  rw [Option.any_eq_true]
  simp only [beq_iff_eq, exists_eq_right]

/-- **The operators agree.** For a value other than null, the interval from the value to itself
holds the cells that equality holds; an inclusive bound holds those that the exclusive bound of its
side or equality holds; and no cell is both below and above. A range holds a cell just when each
bound that it has holds it alone. -/
theorem holds_operators (cell value : Value) (bounds : Range) (h : value.isNull = false) :
    ((range (.between value value)).holds cell = true ↔ (equals value).holds cell = true) ∧
    ((range (.atLeast value)).holds cell = true ↔
      (range (.above value)).holds cell = true ∨ (equals value).holds cell = true) ∧
    ((range (.atMost value)).holds cell = true ↔
      (range (.below value)).holds cell = true ∨ (equals value).holds cell = true) ∧
    ¬ ((range (.below value)).holds cell = true ∧ (range (.above value)).holds cell = true) ∧
    ((range bounds).holds cell = true ↔ ∀ bound limit, bounds.get? bound = some limit →
      (range (.single bound limit)).holds cell = true) := by
  have hsingle : ∀ bound, (Range.single bound value).holds cell =
      (cell.compare? value).any bound.accepts := fun bound => Range.holds_single bound value cell
  have hbetween : (range (.between value value)).holds cell = _ :=
    Range.holds_between value value cell
  have hatLeast : (range (.atLeast value)).holds cell = _ := hsingle .gte
  have hatMost : (range (.atMost value)).holds cell = _ := hsingle .lte
  have habove : (range (.above value)).holds cell = _ := hsingle .gt
  have hbelow : (range (.below value)).holds cell = _ := hsingle .lt
  rw [hbetween, hsingle, hsingle, hatLeast, hatMost, habove, hbelow, holds_equals h]
  refine ⟨?_, ?_, ?_, ?_, Range.holds_iff_single bounds cell⟩
  all_goals
    cases cell.compare? value with
    | none => decide
    | some order => cases order <;> decide

/-- A whole number that is rounded to the double it is compared with. -/
theorem holds_operators_rounded :
    (equals (.float 9007199254740992.0)).holds (.int 9007199254740993) = true ∧
    (range (.between (.float 9007199254740992.0) (.float 9007199254740992.0))).holds
      (.int 9007199254740993) = true ∧
    (range (.atLeast (.float 9007199254740992.0))).holds (.int 9007199254740993) = true ∧
    (range (.atMost (.float 9007199254740992.0))).holds (.int 9007199254740993) = true ∧
    ¬ ((range (.below (.float 9007199254740992.0))).holds (.int 9007199254740993) = true ∧
      (range (.above (.float 9007199254740992.0))).holds (.int 9007199254740993) = true) ∧
    ¬ (range { Range.unbounded with
        gte := some (.float 9007199254740992.0), lt := some (.int 9007199254740993) }).holds
      (.int 9007199254740993) = true := by
  obtain ⟨hbetween, hatLeast, hatMost, hsides, hbounds⟩ :=
    holds_operators (.int 9007199254740993) (.float 9007199254740992.0)
      { Range.unbounded with
        gte := some (.float 9007199254740992.0), lt := some (.int 9007199254740993) } rfl
  have hequal : (equals (.float 9007199254740992.0)).holds (.int 9007199254740993) = true := by
    decide +kernel
  have hlimit : ¬ (range (.single .lt (.int 9007199254740993))).holds
      (.int 9007199254740993) = true := by decide
  exact ⟨hequal, hbetween.mpr hequal, hatLeast.mpr (.inr hequal), hatMost.mpr (.inr hequal), hsides,
    fun h => hlimit (hbounds.mp h .lt _ rfl)⟩

end Filter

end MetricLayer
