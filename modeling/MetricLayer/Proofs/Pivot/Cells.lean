import MetricLayer.Pivot
import MetricLayer.Proofs.Evaluation.Memo
import MetricLayer.Proofs.Rows.Grouping
import MetricLayer.Proofs.Rows.Narrowing

/-!
# The cells of a pivot

One cache serves all groups and metrics of a query. A pivot row is nevertheless what its group gives
on its own: its cells are the plain values of the metrics under the context of the group.
-/

namespace MetricLayer

/-- What a row of the answer asks of a dimension: its value, unless that is null. -/
def PivotRow.filter? (row : PivotRow) (dimension : String) : Option Filter :=
  (row.dimension? dimension).bind fun value => if value.isNull then none else some (.equals value)

namespace Engine

open Evaluation Registry

def plainCell (engine : Engine) (context : Context) (name : String) :
    Except MetricError MetricCell := do
  let value ← engine.value name context
  return ⟨name, value, Display.text? value (engine.registry.displayFormat? name) engine.display⟩

def plainRow (engine : Engine) (query : PivotQuery) (first : Row) : Except MetricError PivotRow := do
  let dimensions := groupDimensions query first
  let cells ← query.metrics.mapM (engine.plainCell (groupContext query dimensions))
  return ⟨dimensions, resolveLabels query.labels dimensions engine.database, cells⟩

variable {engine : Engine} {query : PivotQuery} {first : Row}

section Context

theorem lookup_groupDimensions (query : PivotQuery) (first : Row) (dimension : String) :
    (groupDimensions query first).lookup dimension =
      if dimension ∈ query.rows then some (first.cell dimension) else none :=
  KeyMap.lookup_map_mk first.cell query.rows dimension

/-- The filter of a group comes from its values, and else from the query. -/
theorem get?_groupContext (row : PivotRow) (hrow : row.dimensions = groupDimensions query first)
    (dimension : String) :
    (groupContext query (groupDimensions query first)).get? dimension =
      (row.filter? dimension).or (query.filters.get? dimension) := by
  have hpresent : (((groupDimensions query first).filter fun dimension => !dimension.2.isNull).map
      fun entry => (entry.1, Filter.equals entry.2)) =
      (query.rows.filter fun name => !(first.cell name).isNull).map
        fun name => (name, Filter.equals (first.cell name)) := by
    rw [groupDimensions, List.filter_map, List.map_map]
    rfl
  have hfilter : (KeyMap.ofList
      (((groupDimensions query first).filter fun dimension => !dimension.2.isNull).map
        fun entry => (entry.1, Filter.equals entry.2))).get? dimension = row.filter? dimension := by
    rw [hpresent, KeyMap.get?_ofList, ← List.map_reverse,
      KeyMap.lookup_map_mk fun name => Filter.equals (first.cell name), PivotRow.filter?,
      PivotRow.dimension?, hrow, lookup_groupDimensions]
    by_cases hmem : dimension ∈ query.rows
    · by_cases hnull : (first.cell dimension).isNull = true
      · simp [hmem, hnull]
      · simp [hmem, hnull]
    · simp [hmem]
  rw [groupContext, KeyMap.get?_overlay, ← hfilter]

theorem floatFree_groupContext (hfilters : query.filters.FloatFree)
    (hcells : ∀ dimension ∈ query.rows, (first.cell dimension).FloatFree) :
    (groupContext query (groupDimensions query first)).FloatFree := by
  intro dimension filter hfilter
  let row : PivotRow := ⟨groupDimensions query first, [], []⟩
  have hvalue : row.dimension? dimension =
      if dimension ∈ query.rows then some (first.cell dimension) else none :=
    lookup_groupDimensions query first dimension
  rw [get?_groupContext row rfl, PivotRow.filter?, hvalue] at hfilter
  by_cases hmem : dimension ∈ query.rows
  · rw [if_pos hmem, Option.bind_some] at hfilter
    by_cases hnull : (first.cell dimension).isNull = true
    · rw [if_pos hnull, Option.none_or] at hfilter
      exact hfilters dimension filter hfilter
    · rw [if_neg hnull, Option.some_or] at hfilter
      obtain rfl := Option.some.inj hfilter
      exact hcells dimension hmem
  · rw [if_neg hmem, Option.bind_none, Option.none_or] at hfilter
    exact hfilters dimension filter hfilter

end Context

section Rows

variable {rows : RowSet}

theorem mem_rows_of_mem_leaders (h : first ∈ leaders (engine.groups query rows)) :
    first ∈ rows.rows := by
  obtain ⟨group, hgroup, hhead⟩ := List.mem_filterMap.mp h
  have hmem := mem_of_mem_groupBy hgroup (List.mem_of_head? hhead)
  exact (RowSet.mem_rows_narrowToGrain_iff.mp hmem).1

theorem Founded.computes_pivotRow (hfounded : engine.Founded)
    (htransforms : engine.registry.transforms.KeepFloatFree)
    (hcontext : (groupContext query (groupDimensions query first)).FloatFree) :
    Computes engine.Agrees (engine.pivotRow query first) (engine.plainRow query first) := by
  refine Computes.bind (computes_mapM fun name _ => ?_) fun cells _ => computes_pure _
  refine (hfounded.computes_evaluate htransforms name hcontext).bind fun value _ => ?_
  exact computes_pure _

theorem Founded.computes_pivotRows (hfounded : engine.Founded)
    (htransforms : engine.registry.transforms.KeepFloatFree) (hfilters : query.filters.FloatFree)
    (hcells : ∀ row ∈ rows.rows, ∀ dimension ∈ query.rows, (row.cell dimension).FloatFree) :
    Computes engine.Agrees (engine.pivotRows query rows)
      ((leaders (engine.groups query rows)).mapM (engine.plainRow query)) := by
  refine computes_mapM fun first hfirst => ?_
  have hmem := mem_rows_of_mem_leaders hfirst
  exact hfounded.computes_pivotRow htransforms (floatFree_groupContext hfilters (hcells first hmem))

/-- The answer to a query is that of its groups, each on its own. -/
theorem Founded.runQuery_eq (hfounded : engine.Founded)
    (htransforms : engine.registry.transforms.KeepFloatFree) (hfilters : query.filters.FloatFree)
    (hcells : ∀ table, engine.database.get? query.factTable = some table →
      ∀ row ∈ table, ∀ dimension ∈ query.rows, (row.cell dimension).FloatFree) :
    engine.runQuery query = engine.loadedRows query.factTable >>= fun rows =>
      (leaders (engine.groups query rows)).mapM (engine.plainRow query) := by
  rw [runQuery, loadedRows, Database.rowSet?]
  cases htable : engine.database.get? query.factTable with
  | none => rfl
  | some table =>
      refine (hfounded.computes_pivotRows htransforms hfilters ?_ .empty engine.agrees_empty).1
      intro row hrow
      rw [RowSet.rows_ofRows] at hrow
      exact hcells table htable row hrow

theorem plainRow_eq_ok {row : PivotRow} (h : engine.plainRow query first = .ok row) :
    row.dimensions = groupDimensions query first ∧
      List.Forall₂ (fun name cell => cell.name = name ∧
        engine.value name (groupContext query (groupDimensions query first)) = .ok cell.value ∧
        cell.display =
          Display.text? cell.value (engine.registry.displayFormat? name) engine.display)
        query.metrics row.cells := by
  rw [plainRow] at h
  cases hcells : query.metrics.mapM
      (engine.plainCell (groupContext query (groupDimensions query first))) with
  | error error =>
      rw [hcells] at h
      cases h
  | ok cells =>
      rw [hcells] at h
      obtain rfl := Except.ok.inj h
      refine ⟨rfl, (forall₂_of_mapM_ok hcells).imp fun name cell hcell => ?_⟩
      rw [plainCell] at hcell
      cases hvalue : engine.value name (groupContext query (groupDimensions query first)) with
      | error error =>
          rw [hvalue] at hcell
          cases hcell
      | ok value =>
          rw [hvalue] at hcell
          obtain rfl := Except.ok.inj hcell
          exact ⟨rfl, rfl, rfl⟩

end Rows

/-- **Cells agree with direct evaluation.** A row of an answer lists the metrics of the query in
their order. Each cell holds what its metric evaluates to, with a fresh cache, under the filters of
the query overlaid by the values of the row that are not null, and shows that value in the format of
the metric. -/
theorem runQuery_cells {factTables : List FactTable} {definitions : List Metric} {keys : TimeKeys}
    {registry : Registry}
    (hbuild : Registry.build factTables definitions (.builtin keys) = .ok registry)
    (database : Database) (display : DisplaySettings) {query : PivotQuery}
    (hfilters : query.filters.FloatFree)
    (hcells : ∀ table, database.get? query.factTable = some table →
      ∀ row ∈ table, ∀ dimension ∈ query.rows, (row.cell dimension).FloatFree)
    {rows : List PivotRow} (hrows : Engine.runQuery ⟨registry, database, display⟩ query = .ok rows) :
    ∀ row ∈ rows, row.cells.map MetricCell.name = query.metrics ∧
      ∃ context : Context,
        (∀ dimension, context.get? dimension =
          (row.filter? dimension).or (query.filters.get? dimension)) ∧
        ∀ cell ∈ row.cells,
          Engine.evaluateMetric ⟨registry, database, display⟩ cell.name context = .ok cell.value ∧
            cell.display = Display.text? cell.value (registry.displayFormat? cell.name) display := by
  have hfounded : Engine.Founded ⟨registry, database, display⟩ :=
    founded_of_build hbuild database display
  have htransforms : registry.transforms.KeepFloatFree := by
    rw [(build_eq_ok hbuild).1]
    exact Transforms.keepFloatFree_builtin keys
  rw [hfounded.runQuery_eq htransforms hfilters hcells, loadedRows, Database.rowSet?] at hrows
  cases htable : database.get? query.factTable with
  | none =>
      rw [htable] at hrows
      cases hrows
  | some table =>
      rw [htable] at hrows
      intro row hrow
      obtain ⟨first, hfirst, hplain⟩ := exists_of_forall₂ (forall₂_of_mapM_ok hrows) hrow
      obtain ⟨hdimensions, hmetrics⟩ := plainRow_eq_ok hplain
      have hmem := mem_rows_of_mem_leaders hfirst
      rw [RowSet.rows_ofRows] at hmem
      have hcontext := floatFree_groupContext hfilters (hcells table htable first hmem)
      refine ⟨?_, groupContext query (groupDimensions query first),
        get?_groupContext row hdimensions, fun cell hcell => ?_⟩
      · rw [← List.forall₂_eq_eq_eq, List.forall₂_map_left_iff]
        exact (hmetrics.imp fun name cell hcell => hcell.1).flip
      · obtain ⟨name, _, rfl, hvalue, hdisplay⟩ := exists_of_forall₂ hmetrics hcell
        rw [hfounded.evaluateMetric_eq_value htransforms _ hcontext]
        exact ⟨hvalue, hdisplay⟩

def salesByYear : PivotQuery := ⟨"sales", ["year"], .empty, ["last year", "revenue"], []⟩

/-- The later year asks for the context of the earlier one, which has been cached for its own
group. -/
theorem runQuery_cells_salesByYear :
    ∃ rows, Engine.runQuery ⟨salesRegistry, salesRows, .standard⟩ salesByYear = .ok rows ∧
      rows.length = 2 ∧
      ∀ row ∈ rows, row.cells.map MetricCell.name = ["last year", "revenue"] ∧
        ∃ context : Context,
          (∀ dimension, context.get? dimension =
            (row.filter? dimension).or (salesByYear.filters.get? dimension)) ∧
          ∀ cell ∈ row.cells,
            Engine.evaluateMetric ⟨salesRegistry, salesRows, .standard⟩ cell.name context =
                .ok cell.value ∧
              cell.display = Display.text? cell.value (salesRegistry.displayFormat? cell.name)
                .standard := by
  have hlength : (Engine.runQuery ⟨salesRegistry, salesRows, .standard⟩ salesByYear).toOption.map
      List.length = some 2 := by
    decide +kernel
  cases hrows : Engine.runQuery ⟨salesRegistry, salesRows, .standard⟩ salesByYear with
  | error error =>
      rw [hrows] at hlength
      cases hlength
  | ok rows =>
      rw [hrows] at hlength
      refine ⟨rows, rfl, Option.some.inj hlength, ?_⟩
      refine runQuery_cells build_salesRegistry salesRows .standard Context.floatFree_empty ?_ hrows
      intro table htable row hrow dimension hdimension
      obtain rfl := Option.some.inj htable
      obtain rfl := List.mem_singleton.mp hdimension
      rcases List.mem_cons.mp hrow with rfl | hrow
      · trivial
      · obtain rfl := List.mem_singleton.mp hrow
        trivial

end Engine

end MetricLayer
