import MetricLayer.Rows
import MetricLayer.Proofs.KeyMap.Lookup

/-!
# Narrowing row sets

Narrowing to a grain keeps, in their order, the rows that are within every filter of the context
that is not null and whose dimension belongs to the grain.
-/

namespace MetricLayer

/-- The row is within every filter that counts under the grain. -/
def Context.Admits (context : Context) (grain : List String) (row : Row) : Prop :=
  ∀ dimension filter, context.get? dimension = some filter → filter.isNull = false →
    dimension ∈ grain → filter.holds (row.cell dimension) = true

/-- Under the grain both contexts admit the same rows. -/
def Context.AdmitAlike (grain : List String) (first second : Context) : Prop :=
  ∀ row, first.Admits grain row ↔ second.Admits grain row

namespace RowSet

/-- The step keeps the table and asks one thing more of its rows. -/
def Asks (step : RowSet → RowSet) (condition : Row → Bool) : Prop :=
  ∀ set, (step set).source = set.source ∧
    ∀ row, (step set).admits row = (set.admits row && condition row)

namespace Asks

variable {step : RowSet → RowSet} {condition : Row → Bool}

theorem rows (h : Asks step condition) (set : RowSet) :
    (step set).rows = set.rows.filter condition := by
  obtain ⟨hsource, hadmits⟩ := h set
  rw [RowSet.rows, hsource, RowSet.rows, List.filter_filter]
  refine List.filter_congr fun row _ => ?_
  rw [hadmits, Bool.and_comm]

/-- The rows that are left stay in their places. -/
theorem indexed (h : Asks step condition) (set : RowSet) :
    (step set).indexed = set.indexed.filter fun entry => condition entry.1 := by
  obtain ⟨hsource, hadmits⟩ := h set
  rw [RowSet.indexed, hsource, RowSet.indexed, List.filter_filter]
  refine List.filter_congr fun entry _ => ?_
  rw [hadmits, Bool.and_comm]

theorem congr {other : Row → Bool} (h : Asks step condition)
    (hcondition : ∀ row, condition row = other row) : Asks step other :=
  funext hcondition ▸ h

/-- One step after the other asks for everything that they ask for one by one. -/
theorem foldl {α : Type} {step : RowSet → α → RowSet} {condition : α → Row → Bool}
    (h : ∀ item, Asks (step · item) (condition item)) (items : List α) :
    Asks (items.foldl step) fun row => items.all (condition · row) := by
  induction items with
  | nil => exact fun set => ⟨rfl, fun row => (Bool.and_true _).symm⟩
  | cons item rest ih =>
      intro set
      obtain ⟨hsource, hadmits⟩ := h item set
      obtain ⟨hsource', hadmits'⟩ := ih (step set item)
      refine ⟨hsource'.trans hsource, fun row => (hadmits' row).trans ?_⟩
      calc ((step set item).admits row && rest.all (condition · row))
          = (set.admits row && condition item row && rest.all (condition · row)) := by
            rw [hadmits]
        _ = (set.admits row && (item :: rest).all (condition · row)) := by
            rw [Bool.and_assoc, List.all_cons]

end Asks

theorem admits_narrow (set : RowSet) (condition : Row → Bool) (row : Row) :
    (set.narrow condition).admits row = (set.admits row && condition row) := by
  rw [admits, narrow, List.all_append, List.all_cons, List.all_nil, Bool.and_true, ← admits]

/-- Whether the row is within the filter of an entry, if the entry counts under the grain. -/
def entryHolds (grain : List String) (row : Row) (entry : String × Filter) : Bool :=
  entry.2.isNull || !grain.contains entry.1 || meets entry.1 entry.2 row

/-- An entry that does not count under the grain asks for nothing. -/
theorem asks_entry (grain : List String) (entry : String × Filter) :
    Asks (fun set => if entry.2.isNull || !grain.contains entry.1 then set
      else set.narrow (meets entry.1 entry.2)) (entryHolds grain · entry) := by
  intro set
  dsimp only
  split
  case isTrue hskip =>
    exact ⟨rfl, fun row => by rw [entryHolds, hskip, Bool.true_or, Bool.and_true]⟩
  case isFalse hcounts =>
    refine ⟨rfl, fun row => ?_⟩
    rw [admits_narrow, entryHolds, Bool.eq_false_iff.mpr hcounts, Bool.false_or]

theorem all_entries_iff (context : Context) (grain : List String) (row : Row) :
    context.toList.all (entryHolds grain row) = true ↔ context.Admits grain row := by
  rw [List.all_eq_true]
  constructor
  · intro h dimension filter hfilter hnull hgrain
    have hentry := h (dimension, filter) (KeyMap.mem_toList_iff.mpr hfilter)
    simpa [entryHolds, hnull, hgrain, meets] using hentry
  · intro h entry hentry
    have hfilter := h entry.1 entry.2 (KeyMap.mem_toList_iff.mp hentry)
    by_cases hnull : entry.2.isNull = true
    · simp [entryHolds, hnull]
    · by_cases hgrain : entry.1 ∈ grain
      · have hmeets : meets entry.1 entry.2 row = true :=
          hfilter (Bool.eq_false_iff.mpr hnull) hgrain
        simp [entryHolds, hmeets]
      · simp [entryHolds, hgrain]

instance (context : Context) (grain : List String) (row : Row) :
    Decidable (context.Admits grain row) :=
  decidable_of_iff _ (all_entries_iff context grain row)

/-- Narrowing by a context asks that the context admits the row. -/
theorem asks_narrowToGrain (context : Context) (grain : List String) :
    Asks (·.narrowToGrain context grain) fun row => decide (context.Admits grain row) := by
  have hfold := Asks.foldl (asks_entry grain) context.toList
  refine hfold.congr fun row => ?_
  rw [Bool.eq_iff_iff, all_entries_iff, decide_eq_true_iff]

/-- Narrowing keeps the rows that the context admits, in their order. -/
theorem rows_narrowToGrain (set : RowSet) (context : Context) (grain : List String) :
    (set.narrowToGrain context grain).rows =
      set.rows.filter fun row => decide (context.Admits grain row) :=
  (asks_narrowToGrain context grain).rows set

theorem rows_narrowToGrain_congr {grain : List String} {first second : Context}
    (h : Context.AdmitAlike grain first second) (set : RowSet) :
    (set.narrowToGrain first grain).rows = (set.narrowToGrain second grain).rows := by
  rw [rows_narrowToGrain, rows_narrowToGrain]
  refine List.filter_congr fun row _ => ?_
  rw [decide_eq_decide]
  exact h row

theorem mem_rows_narrowToGrain_iff {set : RowSet} {context : Context} {grain : List String}
    {row : Row} :
    row ∈ (set.narrowToGrain context grain).rows ↔
      row ∈ set.rows ∧ context.Admits grain row := by
  rw [rows_narrowToGrain, List.mem_filter, decide_eq_true_iff]

end RowSet

end MetricLayer
