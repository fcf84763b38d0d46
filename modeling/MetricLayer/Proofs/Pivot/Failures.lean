import MetricLayer.Proofs.Evaluation.Failures
import MetricLayer.Proofs.Pivot.Cells
import MetricLayer.Proofs.Pivot.Groups

/-!
# All or nothing

As failure does not depend on the context, all groups of a query fail or none, and with one error:
that of the first metric of the query that fails.
-/

namespace MetricLayer

namespace Engine

open Evaluation Registry

variable {engine : Engine} {query : PivotQuery} {table : List Row}

theorem leaders_eq_nil_iff :
    leaders (engine.groups query (.ofRows table)) = [] ↔ engine.baseRows query table = [] := by
  constructor
  · intro hleaders
    refine List.eq_nil_iff_forall_not_mem.mpr fun row hrow => ?_
    have hkey : groupKey query.rows row ∈
        (leaders (engine.groups query (.ofRows table))).map (groupKey query.rows) := by
      rw [map_groupKey_leaders, List.mem_eraseDups]
      exact List.mem_map_of_mem hrow
    rw [hleaders] at hkey
    cases hkey
  · intro hbase
    rw [groups_ofRows, hbase]
    rfl

def plainValues (engine : Engine) (query : PivotQuery) (context : Context) :
    Except MetricError (List (Option Float)) :=
  query.metrics.mapM fun name => engine.value name context

theorem Founded.ensures_pivotRow_sameFailure (hfounded : engine.Founded) (plain : Context)
    (first : Row) :
    Ensures engine.Sound (engine.pivotRow query first)
      (SameFailure (engine.plainValues query plain)) := by
  refine ensures_map_sameFailure (ensures_mapM_sameFailure fun name _ => ?_) _
  exact ensures_map_sameFailure (hfounded.ensures_evaluate_sameFailure name _ plain) _

theorem Founded.runQuery_eq_error_iff (hfounded : engine.Founded)
    (htable : engine.database.get? query.factTable = some table) (plain : Context)
    {error : MetricError} :
    engine.runQuery query = .error error ↔
      engine.baseRows query table ≠ [] ∧ engine.plainValues query plain = .error error := by
  have hrows : Ensures engine.Sound (engine.pivotRows query (.ofRows table)) (SameFailure
      ((leaders (engine.groups query (.ofRows table))).mapM fun _ =>
        engine.plainValues query plain)) :=
    ensures_mapM_sameFailure fun first _ => hfounded.ensures_pivotRow_sameFailure plain first
  rw [ne_eq, ← leaders_eq_nil_iff, ← ne_eq, ← mapM_const_eq_error_iff, runQuery, loadedRows,
    Database.rowSet?, htable]
  exact ((hrows .empty engine.sound_empty).1 error).symm

theorem runQuery_of_not_loaded (htable : engine.database.get? query.factTable = none) :
    engine.runQuery query = .error (.unknownFactTable query.factTable) := by
  rw [runQuery, loadedRows, Database.rowSet?, htable]
  rfl

theorem Founded.plainValues_eq_error_iff (hfounded : engine.Founded) (plain : Context)
    {error : MetricError} :
    engine.plainValues query plain = .error error ↔
      ∃ before name after, query.metrics = before ++ name :: after ∧
        (∀ earlier ∈ before, engine.AlwaysSucceeds earlier) ∧ engine.AlwaysFails name error := by
  simp only [plainValues, mapM_eq_error_iff, hfounded.alwaysSucceeds_iff plain,
    hfounded.alwaysFails_iff plain]

/-- **All or nothing.** In a registry that was built, a metric has a value under every context and
after every run of earlier calls, or it always fails with one error. A query fails if its table is
not loaded, and with the error of its first metric that fails if a row passes its filters. Else each
row of the answer has a cell for every metric. -/
theorem runQuery_all_or_nothing {factTables : List FactTable} {definitions : List Metric}
    {transforms : Transforms} {registry : Registry}
    (hbuild : Registry.build factTables definitions transforms = .ok registry)
    (database : Database) (display : DisplaySettings) :
    let engine : Engine := ⟨registry, database, display⟩
    (∀ name, engine.AlwaysSucceeds name ∨ ∃ error, engine.AlwaysFails name error) ∧
      ∀ query : PivotQuery,
        (∀ error, engine.runQuery query = .error error ↔
          (database.get? query.factTable = none ∧ error = .unknownFactTable query.factTable) ∨
            ∃ table, database.get? query.factTable = some table ∧
              engine.baseRows query table ≠ [] ∧
              ∃ before name after, query.metrics = before ++ name :: after ∧
                (∀ earlier ∈ before, engine.AlwaysSucceeds earlier) ∧
                engine.AlwaysFails name error) ∧
        ∀ rows, engine.runQuery query = .ok rows →
          ∀ row ∈ rows, row.cells.map MetricCell.name = query.metrics := by
  intro engine
  have hfounded : engine.Founded := founded_of_build hbuild database display
  refine ⟨hfounded.alwaysSucceeds_or_alwaysFails, fun query => ?_⟩
  cases htable : database.get? query.factTable with
  | none =>
      have hmissing : engine.runQuery query = .error (.unknownFactTable query.factTable) :=
        runQuery_of_not_loaded htable
      rw [hmissing]
      constructor
      · intro error
        rw [Except.error.injEq, eq_comm]
        simp
      · intro rows hrows
        cases hrows
  | some table =>
      constructor
      · intro error
        rw [hfounded.runQuery_eq_error_iff htable .empty, hfounded.plainValues_eq_error_iff]
        simp
      · intro rows hrows row hrow
        obtain ⟨first, _, _, hcells⟩ := exists_of_forall₂ (forall₂_of_runQuery_ok htable hrows) hrow
        exact hcells

/-- The second metric refers to one that is missing. -/
theorem runQuery_all_or_nothing_margin :
    let engine : Engine := ⟨salesRegistry, salesRows, .standard⟩
    engine.AlwaysSucceeds "revenue" ∧ engine.AlwaysFails "margin" (.unknownMetric "cost") ∧
      engine.runQuery ⟨"sales", ["year"], ofYear 2023, ["revenue", "margin"], []⟩ =
        .error (.unknownMetric "cost") ∧
      ∀ rows, engine.runQuery salesByYear = .ok rows →
        ∀ row ∈ rows, row.cells.map MetricCell.name = ["last year", "revenue"] := by
  intro engine
  obtain ⟨hmetrics, hqueries⟩ := runQuery_all_or_nothing build_salesRegistry salesRows .standard
  have hrevenue : engine.AlwaysSucceeds "revenue" := by
    rcases hmetrics "revenue" with h | ⟨error, h⟩
    · exact h
    · cases h [] .empty
  have hmargin : engine.AlwaysFails "margin" (.unknownMetric "cost") := by
    rcases hmetrics "margin" with h | ⟨error, h⟩
    · obtain ⟨value, hvalue⟩ := h [] .empty
      cases hvalue
    · obtain rfl := Except.error.inj (h [] .empty)
      exact h
  refine ⟨hrevenue, hmargin, ?_, (hqueries salesByYear).2⟩
  refine ((hqueries ⟨"sales", ["year"], ofYear 2023, ["revenue", "margin"], []⟩).1 _).mpr
    (.inr ⟨_, rfl, ?_, ["revenue"], "margin", [], rfl, ?_, hmargin⟩)
  · exact List.ne_nil_of_length_pos (by decide +kernel)
  · exact List.forall_mem_singleton.mpr hrevenue

end Engine

end MetricLayer
