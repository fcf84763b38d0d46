import MetricLayer.Proofs.Evaluation.Relevance
import MetricLayer.Proofs.Evaluation.RowOrder
import MetricLayer.Proofs.Pivot.Failures

/-!
# Row order in pivots

A row of an answer depends on its group only through the values of the group. Where no value is a
floating-point number, all rows of a group have the same values, so it does not matter which of them
comes first, nor in which order groups fill the cache.
-/

namespace MetricLayer

/-- One error, or the same items in some order. -/
inductive SameUpToOrder {ε α : Type} : Except ε (List α) → Except ε (List α) → Prop
  | error (error : ε) : SameUpToOrder (.error error) (.error error)
  | ok {items others : List α} (h : items.Perm others) : SameUpToOrder (.ok items) (.ok others)

namespace SameUpToOrder

variable {ε α β : Type}

theorem trans {first second third : Except ε (List α)} (h : SameUpToOrder first second)
    (hthird : SameUpToOrder second third) : SameUpToOrder first third := by
  cases h with
  | error error => exact hthird
  | ok h =>
      cases hthird with
      | ok hthird => exact .ok (h.trans hthird)

/-- If all items that fail do so with one error, it does not matter which of them comes first. -/
theorem mapM {evaluate : α → Except ε β} {items others : List α} (hperm : items.Perm others)
    (halike : ∀ item ∈ items, ∀ other ∈ items, ∀ error,
      evaluate item = .error error → evaluate other = .error error) :
    SameUpToOrder (items.mapM evaluate) (others.mapM evaluate) := by
  induction hperm with
  | nil => exact .ok (.refl [])
  | @cons item items others hperm ih =>
      rw [List.mapM_cons, List.mapM_cons]
      cases evaluate item with
      | error error => exact .error error
      | ok value =>
          have hrest := ih fun item hitem other hother =>
            halike item (List.mem_cons_of_mem _ hitem) other (List.mem_cons_of_mem _ hother)
          revert hrest
          generalize items.mapM evaluate = outcome
          generalize others.mapM evaluate = outcome'
          rintro (error | hvalues)
          · exact .error error
          · exact .ok (hvalues.cons value)
  | swap first second rest =>
      simp only [List.mapM_cons]
      cases hfirst : evaluate first with
      | error error =>
          rw [halike first (by simp) second (by simp) error hfirst]
          exact .error error
      | ok value =>
          cases hsecond : evaluate second with
          | error error =>
              rw [halike second (by simp) first (by simp) error hsecond] at hfirst
              cases hfirst
          | ok value' =>
              cases rest.mapM evaluate with
              | error error => exact .error error
              | ok values => exact .ok (.swap value value' values)
  | trans hfirst _ ih ih' =>
      refine (ih halike).trans (ih' fun item hitem other hother => ?_)
      exact halike item (hfirst.mem_iff.mpr hitem) other (hfirst.mem_iff.mpr hother)

end SameUpToOrder

namespace Engine

open Evaluation Registry

variable {engine : Engine} {other : Database} {query : PivotQuery} {table reordered : List Row}

/-- The row of a group by its values, without a cache. -/
def groupRow (engine : Engine) (query : PivotQuery) (dimensions : List (String × Value)) :
    Except MetricError PivotRow := do
  let cells ← query.metrics.mapM (engine.plainCell (groupContext query dimensions))
  return ⟨dimensions, resolveLabels query.labels dimensions engine.database, cells⟩

theorem mapM_plainRow (leaders : List Row) :
    leaders.mapM (engine.plainRow query) =
      (leaders.map (groupDimensions query)).mapM (engine.groupRow query) := by
  rw [List.mapM_map]
  rfl

theorem baseRows_perm (hperm : table.Perm reordered) :
    (engine.baseRows query table).Perm ((engine.withDatabase other).baseRows query reordered) := by
  have hrows : (RowSet.ofRows table).rows.Perm (RowSet.ofRows reordered).rows := by
    rwa [RowSet.rows_ofRows, RowSet.rows_ofRows]
  have hgrain : engine.filterGrain query (.ofRows table) =
      (engine.withDatabase other).filterGrain query (.ofRows reordered) := by
    rw [filterGrain, filterGrain, RowSet.columns_eq_of_perm hrows]
    rfl
  rw [baseRows, baseRows, hgrain]
  exact RowSet.narrowToGrain_perm hrows _ _

def groupValues (engine : Engine) (query : PivotQuery) (table : List Row) :
    List (List (String × Value)) :=
  (leaders (engine.groups query (.ofRows table))).map (groupDimensions query)

theorem mem_groupValues_iff
    (hcells : ∀ row ∈ table, ∀ dimension ∈ query.rows, (row.cell dimension).FloatFree)
    {values : List (String × Value)} :
    values ∈ engine.groupValues query table ↔
      ∃ row ∈ engine.baseRows query table, groupDimensions query row = values := by
  rw [groupValues, List.mem_map]
  constructor
  · rintro ⟨leader, hleader, rfl⟩
    exact ⟨leader, mem_baseRows_of_mem_leaders hleader, rfl⟩
  · rintro ⟨row, hrow, rfl⟩
    exact exists_leader hcells hrow

theorem groupValues_perm (hperm : table.Perm reordered)
    (hcells : ∀ row ∈ table, ∀ dimension ∈ query.rows, (row.cell dimension).FloatFree) :
    (engine.groupValues query table).Perm
      ((engine.withDatabase other).groupValues query reordered) := by
  refine (List.perm_ext_iff_of_nodup nodup_leaders nodup_leaders).mpr fun values => ?_
  have hcells' : ∀ row ∈ reordered, ∀ dimension ∈ query.rows, (row.cell dimension).FloatFree :=
    fun row hrow => hcells row (hperm.mem_iff.mpr hrow)
  refine (mem_groupValues_iff hcells).trans (.trans ?_ (mem_groupValues_iff hcells').symm)
  exact exists_congr fun row => and_congr_left fun _ => (baseRows_perm hperm).mem_iff

section FloatFree

variable (hfilters : query.filters.FloatFree)
  (hcells : ∀ row ∈ table, ∀ dimension ∈ query.rows, (row.cell dimension).FloatFree)

include hfilters hcells

theorem floatFree_of_mem_groupValues {values : List (String × Value)}
    (hvalues : values ∈ engine.groupValues query table) :
    (groupContext query values).FloatFree := by
  obtain ⟨row, hrow, rfl⟩ := (mem_groupValues_iff hcells).mp hvalues
  exact floatFree_groupContext hfilters (hcells row (mem_baseRows_iff.mp hrow).1)

section Founded

variable (hfounded : engine.Founded) (htransforms : engine.registry.transforms.KeepFloatFree)

include hfounded htransforms

theorem Founded.runQuery_eq_mapM_groupRow
    (htable : engine.database.get? query.factTable = some table) :
    engine.runQuery query = (engine.groupValues query table).mapM (engine.groupRow query) := by
  have hloaded : ∀ rows, engine.database.get? query.factTable = some rows →
      ∀ row ∈ rows, ∀ dimension ∈ query.rows, (row.cell dimension).FloatFree := by
    intro rows hrows
    obtain rfl := Option.some.inj (htable.symm.trans hrows)
    exact hcells
  rw [hfounded.runQuery_eq htransforms hfilters hloaded, loadedRows, Database.rowSet?, htable]
  exact mapM_plainRow _

/-- All groups fail like the metrics of the query do under no filters. -/
theorem Founded.sameFailure_groupRow {values : List (String × Value)}
    (hvalues : values ∈ engine.groupValues query table) :
    SameFailure (engine.plainValues query .empty) (engine.groupRow query values) := by
  have hcontext := floatFree_of_mem_groupValues hfilters hcells hvalues
  obtain ⟨row, _, rfl⟩ := (mem_groupValues_iff hcells).mp hvalues
  have hplain : engine.groupRow query (groupDimensions query row) = engine.plainRow query row := rfl
  rw [hplain, ← (hfounded.computes_pivotRow htransforms hcontext .empty engine.agrees_empty).1]
  exact (hfounded.ensures_pivotRow_sameFailure .empty row .empty engine.sound_empty).1

theorem Founded.groupRow_withDatabase (hcounts : engine.OnlyCounts)
    (hrows : engine.database.Reordered other) (hlabels : query.labels = [])
    {values : List (String × Value)} (hvalues : values ∈ engine.groupValues query table) :
    engine.groupRow query values = (engine.withDatabase other).groupRow query values := by
  have hcontext := floatFree_of_mem_groupValues hfilters hcells hvalues
  have hother : (engine.withDatabase other).Founded := hfounded
  have hcell : ∀ name, engine.plainCell (groupContext query values) name =
      (engine.withDatabase other).plainCell (groupContext query values) name := by
    intro name
    rw [plainCell, plainCell, ← hfounded.evaluateMetric_eq_value htransforms name hcontext,
      ← hother.evaluateMetric_eq_value htransforms name hcontext, evaluateMetric, evaluateMetric,
      evaluate_withDatabase hcounts hrows]
    rfl
  rw [groupRow, groupRow, hlabels, mapM_congr fun name _ => hcell name]
  rfl

/-- Groups are met in another order, and none of them gives another row. -/
theorem Founded.runQuery_withDatabase (hcounts : engine.OnlyCounts)
    (hrows : engine.database.Reordered other) (hlabels : query.labels = [])
    (htable : engine.database.get? query.factTable = some table)
    (hreordered : other.get? query.factTable = some reordered) (hperm : table.Perm reordered) :
    SameUpToOrder (engine.runQuery query) ((engine.withDatabase other).runQuery query) := by
  have hother : (engine.withDatabase other).Founded := hfounded
  have hcells' : ∀ row ∈ reordered, ∀ dimension ∈ query.rows, (row.cell dimension).FloatFree :=
    fun row hrow => hcells row (hperm.mem_iff.mpr hrow)
  have hvalues : (engine.groupValues query table).Perm
      ((engine.withDatabase other).groupValues query reordered) := groupValues_perm hperm hcells
  have hsame : ((engine.withDatabase other).groupValues query reordered).mapM
        ((engine.withDatabase other).groupRow query) =
      ((engine.withDatabase other).groupValues query reordered).mapM (engine.groupRow query) :=
    mapM_congr fun values hmem => (hfounded.groupRow_withDatabase hfilters hcells htransforms
      hcounts hrows hlabels (hvalues.mem_iff.mpr hmem)).symm
  rw [hfounded.runQuery_eq_mapM_groupRow hfilters hcells htransforms htable,
    hother.runQuery_eq_mapM_groupRow hfilters hcells' htransforms hreordered, hsame]
  refine .mapM hvalues fun first hfirst second hsecond error herror => ?_
  have hfails := hfounded.sameFailure_groupRow hfilters hcells htransforms hfirst error
  exact (hfounded.sameFailure_groupRow hfilters hcells htransforms hsecond error).mp
    (hfails.mpr herror)

end Founded

end FloatFree

/-- **Row order does not matter for counts.** Let all metrics of a registry with the built-in
transforms count, or be made of metrics that do. If the rows of one table of the database stand in
another order, all metrics have the same outcome under all contexts, and queries over that table
have the same rows or the same error, provided that they have no labels and neither filters nor
dimensions with floating-point numbers. -/
theorem rowOrder_of_counts {factTables : List FactTable} {definitions : List Metric}
    {keys : TimeKeys} {registry : Registry}
    (hbuild : Registry.build factTables definitions (.builtin keys) = .ok registry)
    (hcounts : ∀ definition ∈ definitions, registry.Counts definition.kind)
    (database : Database) (display : DisplaySettings) {name : String} {table reordered : List Row}
    (htable : database.get? name = some table) (hperm : table.Perm reordered) :
    let engine : Engine := ⟨registry, database, display⟩
    let other : Engine := ⟨registry, database.insert name reordered, display⟩
    (∀ metric context, engine.evaluateMetric metric context = other.evaluateMetric metric context) ∧
      ∀ query : PivotQuery, query.factTable = name → query.labels = [] → query.filters.FloatFree →
        (∀ row ∈ table, ∀ dimension ∈ query.rows, (row.cell dimension).FloatFree) →
        SameUpToOrder (engine.runQuery query) (other.runQuery query) := by
  intro engine other
  have hfounded : engine.Founded := founded_of_build hbuild database display
  have htransforms : registry.transforms.KeepFloatFree := by
    rw [(build_eq_ok hbuild).1]
    exact Transforms.keepFloatFree_builtin keys
  have honly : engine.OnlyCounts := fun _ metric hmetric =>
    hcounts metric (mem_definitions_of_build hbuild hmetric)
  have hrows : database.Reordered (database.insert name reordered) :=
    Database.reordered_insert htable hperm
  refine ⟨fun metric context => ?_, fun query hquery hlabels hfilters hcells => ?_⟩
  · rw [evaluateMetric, evaluateMetric, evaluate_withDatabase honly hrows]
    rfl
  · subst hquery
    have hreordered : (database.insert query.factTable reordered).get? query.factTable =
        some reordered := by
      rw [KeyMap.get?_insert, if_pos rfl]
    exact hfounded.runQuery_withDatabase hfilters hcells htransforms honly hrows hlabels htable
      hreordered hperm

/-! Visits to two pages by two visitors, counted from either end. -/

def visitTables : List FactTable :=
  [⟨"visits", ["page", "year"], KeyMap.ofList [("count", ⟨"visitor", .count, none⟩)]⟩]

def visitMetrics : List Metric := [
  .fact "visits" "visits" "count",
  .expression "visitors" "visits" fun rows _ _ => (Aggregate.distinctCount "visitor").apply rows,
  .derived "visits each" ["visits", "visitors"] fun values _ _ =>
    (Combine.ratio "visits" "visitors").apply values,
  .transform "last year" "visits" "prior_period"]

def visitRegistry : Registry where
  factTables := KeyMap.ofList (visitTables.map fun table => (table.name, table))
  metrics := KeyMap.ofList (visitMetrics.map fun metric => (metric.name, metric))
  transforms := .builtin .standard

theorem build_visitRegistry :
    Registry.build visitTables visitMetrics (.builtin .standard) = .ok visitRegistry :=
  build_of_acyclic (by decide +kernel) (by decide +kernel)

theorem counts_visitMetrics :
    ∀ definition ∈ visitMetrics, visitRegistry.Counts definition.kind := by
  intro definition hdefinition
  simp only [visitMetrics, List.mem_cons, List.not_mem_nil, or_false] at hdefinition
  rcases hdefinition with rfl | rfl | rfl | rfl
  · intro table measure htable hmeasure
    obtain rfl := Option.some.inj htable
    obtain rfl := Option.some.inj hmeasure
    rfl
  · exact ⟨"visitor", rfl⟩
  · exact ⟨.ratio "visits" "visitors", rfl⟩
  · trivial

def visit (page visitor : String) (year : Int64) : Row :=
  KeyMap.ofList [("page", .string page), ("visitor", .string visitor), ("year", .int year)]

def visitRows : List Row :=
  [visit "home" "ann" 2023, visit "shop" "ann" 2024, visit "home" "bob" 2024,
    visit "home" "ann" 2024]

def byPage : PivotQuery := ⟨"visits", ["page"], ofYear 2024, ["visits each", "last year"], []⟩

theorem floatFree_visitRows :
    ∀ row ∈ visitRows, ∀ dimension ∈ byPage.rows, (row.cell dimension).FloatFree := by
  intro row hrow dimension hdimension
  obtain rfl := List.mem_singleton.mp hdimension
  simp only [visitRows, List.mem_cons, List.not_mem_nil, or_false] at hrow
  rcases hrow with rfl | rfl | rfl | rfl <;> trivial

theorem rowOrder_of_counts_byPage :
    let database : Database := KeyMap.ofList [("visits", visitRows)]
    let engine : Engine := ⟨visitRegistry, database, .standard⟩
    let other : Engine := ⟨visitRegistry, database.insert "visits" visitRows.reverse, .standard⟩
    (engine.runQuery byPage).toOption.map List.length = some 2 ∧
      (∀ metric context,
        engine.evaluateMetric metric context = other.evaluateMetric metric context) ∧
      SameUpToOrder (engine.runQuery byPage) (other.runQuery byPage) := by
  intro database engine other
  have htable : database.get? "visits" = some visitRows := rfl
  obtain ⟨hmetrics, hqueries⟩ := rowOrder_of_counts build_visitRegistry counts_visitMetrics database
    .standard htable visitRows.reverse_perm.symm
  exact ⟨by decide +kernel, hmetrics,
    hqueries byPage rfl rfl (floatFree_ofYear 2024) floatFree_visitRows⟩

end Engine

end MetricLayer
