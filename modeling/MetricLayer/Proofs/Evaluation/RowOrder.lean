import MetricLayer.Metric.Aggregate
import MetricLayer.Proofs.Evaluation.Recursion
import MetricLayer.Proofs.Evaluation.Runs
import MetricLayer.Proofs.Rows.Narrowing
import Mathlib.Data.List.Sort
import Mathlib.Data.Option.Basic
import Mathlib.Data.String.Basic

/-!
# Metrics that count

Sums of floating-point numbers depend on the order in which rows are added up. Numbers of rows and
of distinct values do not: over tables whose rows stand in another order, metrics that only count
go through the same computation, cache by cache.
-/

namespace MetricLayer

theorem KeyMap.sortNames_congr {names others : List String}
    (h : ∀ name, name ∈ names ↔ name ∈ others) : sortNames names = sortNames others := by
  refine List.Pairwise.eq_of_mem_iff (keys_sorted _) (keys_sorted _) fun name => ?_
  exact mem_sortNames_iff.trans ((h name).trans mem_sortNames_iff.symm)

namespace RowSet

variable {first second : RowSet}

theorem narrowToGrain_perm (h : first.rows.Perm second.rows) (context : Context)
    (grain : List String) :
    (first.narrowToGrain context grain).rows.Perm (second.narrowToGrain context grain).rows := by
  rw [rows_narrowToGrain, rows_narrowToGrain]
  exact h.filter _

theorem count_eq_of_perm (h : first.rows.Perm second.rows) : first.count = second.count :=
  h.length_eq

theorem columns_eq_of_perm (h : first.rows.Perm second.rows) : first.columns = second.columns :=
  KeyMap.sortNames_congr fun _ => (h.flatMap_right _).mem_iff

end RowSet

theorem Aggregate.distinctCount_eq_of_perm {first second : RowSet}
    (h : first.rows.Perm second.rows) (column : String) :
    (distinctCount column).apply first = (distinctCount column).apply second := by
  have htexts : distinctTexts first column = distinctTexts second column :=
    KeyMap.sortNames_congr fun _ => ((h.map _).filterMap _).mem_iff
  rw [apply, apply, htexts]

/-- The same tables, each up to the order of its rows. -/
def Database.Reordered (database other : Database) : Prop :=
  ∀ name, Option.Rel List.Perm (database.get? name) (other.get? name)

theorem Database.reordered_insert {database : Database} {name : String} {table reordered : List Row}
    (htable : database.get? name = some table) (hperm : table.Perm reordered) :
    database.Reordered (database.insert name reordered) := by
  intro held
  rw [KeyMap.get?_insert]
  split
  · rename_i hname
    rw [hname, htable]
    exact .some hperm
  · cases database.get? held with
    | none => exact .none
    | some rows => exact .some (.refl rows)

/-- The metric counts rows or distinct values, or is made of metrics by a function that a model file
can name. -/
def Registry.Counts (registry : Registry) : MetricKind → Prop
  | .fact fact => ∀ table measure, registry.factTables.get? fact.factTable = some table →
      table.measures.get? fact.measure = some measure →
        fact.aggregation.getD measure.aggregation = .count
  | .expression expression => ∃ column,
      expression.aggregator = fun rows _ _ => (Aggregate.distinctCount column).apply rows
  | .derived derived => ∃ combine : Combine,
      derived.combinator = fun values _ _ => combine.apply values
  | .transform _ => True

namespace Engine

open Evaluation

variable {engine : Engine} {other : Database}

def withDatabase (engine : Engine) (database : Database) : Engine := { engine with database }

def OnlyCounts (engine : Engine) : Prop :=
  ∀ name metric, engine.registry.metrics.get? name = some metric →
    engine.registry.Counts metric.kind

/-- What is done with loaded rows does not show the order of rows, if it is alike on rows in
another order. -/
theorem loadedRows_bind_withDatabase {α : Type} (hrows : engine.database.Reordered other)
    {name : String} {use reuse : RowSet → Except MetricError α}
    (h : ∀ first second, first.rows.Perm second.rows → use first = reuse second) :
    (engine.loadedRows name >>= use) = ((engine.withDatabase other).loadedRows name >>= reuse) := by
  rw [loadedRows, loadedRows, Database.rowSet?, Database.rowSet?, withDatabase]
  have htables := hrows name
  cases htable : engine.database.get? name with
  | none =>
      rw [htable] at htables
      cases htables' : other.get? name with
      | none => rfl
      | some reordered =>
          rw [htables'] at htables
          cases htables
  | some table =>
      rw [htable] at htables
      cases htables' : other.get? name with
      | none =>
          rw [htables'] at htables
          cases htables
      | some reordered =>
          rw [htables'] at htables
          cases htables with
          | some hperm =>
              refine h _ _ ?_
              rwa [RowSet.rows_ofRows, RowSet.rows_ofRows]

theorem factValue_withDatabase (hrows : engine.database.Reordered other) {fact : FactMetric}
    (hcounts : engine.registry.Counts (.fact fact)) (context : Context) :
    engine.factValue fact context = (engine.withDatabase other).factValue fact context := by
  rw [factValue, factValue, factTable, factTable, withDatabase]
  cases htable : engine.registry.factTables.get? fact.factTable with
  | none => rfl
  | some table =>
      cases hmeasure : table.measures.get? fact.measure with
      | none => simp only [bind, Except.bind, hmeasure]
      | some measure =>
          have hcount := hcounts table measure htable hmeasure
          simp only [bind, Except.bind, hmeasure]
          refine loadedRows_bind_withDatabase hrows fun first second hperm => ?_
          have hselected := RowSet.narrowToGrain_perm hperm context (fact.grain.getD table.grain)
          rw [hcount, aggregate, aggregate, RowSet.count_eq_of_perm hselected]

theorem expressionValue_withDatabase (hrows : engine.database.Reordered other)
    {expression : ExpressionMetric} (hcounts : engine.registry.Counts (.expression expression))
    (context : Context) :
    engine.expressionValue expression context =
      (engine.withDatabase other).expressionValue expression context := by
  obtain ⟨column, hcolumn⟩ := hcounts
  have hgrain : (engine.withDatabase other).expressionGrain expression =
      engine.expressionGrain expression := rfl
  rw [expressionValue, expressionValue, hgrain]
  refine congrArg _ (funext fun grain => ?_)
  refine loadedRows_bind_withDatabase hrows fun first second hperm => ?_
  rw [hcolumn]
  dsimp only
  rw [Aggregate.distinctCount_eq_of_perm (RowSet.narrowToGrain_perm hperm context grain)]

/-- One step, with the evaluations that it starts left to one function. -/
theorem definitionStep_withDatabase (hcounts : engine.OnlyCounts)
    (hrows : engine.database.Reordered other)
    (evaluate : String → Context → Evaluation (Option Float)) (name : String) (context : Context) :
    engine.definitionStep evaluate name context =
      (engine.withDatabase other).definitionStep evaluate name context := by
  have hsame : (engine.withDatabase other).metric name = engine.metric name := rfl
  rw [definitionStep, definitionStep, hsame]
  cases hmetric : engine.metric name with
  | error error => rfl
  | ok metric =>
      have hkinds := hcounts name metric (metric_eq_ok hmetric)
      rw [Evaluation.ofExcept, pure_bind, pure_bind]
      cases hkind : metric.kind with
      | fact fact =>
          rw [hkind] at hkinds
          dsimp only
          rw [factValue_withDatabase hrows hkinds]
      | expression expression =>
          rw [hkind] at hkinds
          dsimp only
          rw [expressionValue_withDatabase hrows hkinds]
      | derived derived =>
          rw [hkind] at hkinds
          obtain ⟨combine, hcombine⟩ := hkinds
          dsimp only
          rw [hcombine]
      | transform transform => rfl

theorem evaluateWithin_withDatabase (hcounts : engine.OnlyCounts)
    (hrows : engine.database.Reordered other) (depth : Nat) :
    engine.evaluateWithin depth = (engine.withDatabase other).evaluateWithin depth := by
  induction depth with
  | zero => rfl
  | succ depth ih =>
      funext name context
      rw [evaluateWithin_succ, evaluateWithin_succ, ← ih, definitionStep_withDatabase hcounts hrows]

/-- Row order does not show in what a metric computes, nor in what it leaves in the cache. -/
theorem evaluate_withDatabase (hcounts : engine.OnlyCounts)
    (hrows : engine.database.Reordered other) :
    engine.evaluate = (engine.withDatabase other).evaluate := by
  funext name context
  exact congrFun (congrFun (evaluateWithin_withDatabase hcounts hrows engine.maxDepth) name) context

end Engine

end MetricLayer
