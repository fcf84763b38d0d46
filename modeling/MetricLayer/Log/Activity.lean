import MetricLayer.Log
import MetricLayer.Model
import MetricLayer.Metric
import MetricLayer.Pivot
import MetricLayer.Decimal.Layout

namespace MetricLayer

namespace LogEntry

def count (n : Nat) (things : String) : String := toString n ++ " " ++ things

def registryBuilt (registry : Registry) : LogEntry :=
  ⟨.debug, "metrica::semantic::registry",
    "Built metric registry: " ++ ", ".intercalate [
      count registry.metrics.size "metrics",
      count registry.factTables.size "fact tables",
      count registry.transforms.size "transforms"]⟩

def modelLoaded (model : Model) : LogEntry :=
  ⟨.debug, "metrica::loader",
    "Loaded model: " ++ ", ".intercalate [
      count model.registry.metrics.size "metrics",
      count model.registry.factTables.size "fact tables",
      count model.labels.length "label lookups"]⟩

def datasetLoaded (database : Database) : LogEntry :=
  ⟨.debug, "metrica::loader", "Loaded dataset: tables " ++ Text.quotedList database.keys⟩

def evaluator : String := "metrica::semantic::evaluator"

def ofCacheEvent : CacheEvent → LogEntry
  | .found key => ⟨.trace, evaluator, "cache hit: " ++ key.metric ++ " " ++ key.context⟩
  | .stored key value =>
      ⟨.trace, evaluator, "evaluated " ++ key.metric ++ " " ++ key.context ++ " = " ++
        inspectOption Decimal.Layout.log.write value⟩

def metricsEvaluated (metrics : Nat) (cache : Cache) : LogEntry :=
  ⟨.debug, evaluator,
    "Evaluated " ++ count metrics "metrics" ++ ": " ++ ", ".intercalate [
      count cache.size "cache entries", count cache.hits "hits", count cache.misses "misses"]⟩

def pivot : String := "metrica::semantic::pivot"

def rowsGrouped (query : PivotQuery) (groups : Nat) : LogEntry :=
  ⟨.debug, pivot,
    "Pivot over '" ++ query.factTable ++ "' by " ++ Text.quotedList query.rows ++ ": " ++
      count groups "groups"⟩

def cellsEvaluated (cells : Nat) (cache : Cache) : LogEntry :=
  ⟨.debug, pivot,
    "Pivot evaluated " ++ count cells "cells" ++ ": " ++ ", ".intercalate [
      count cache.size "cache entries", count cache.hits "hits"]⟩

def ofResult {α : Type} (entry : α → LogEntry) : Except MetricError α → List LogEntry
  | .ok result => [entry result]
  | .error _ => []

end LogEntry

def Cache.log (cache : Cache) : List LogEntry := cache.journal.reverse.map LogEntry.ofCacheEvent

namespace Engine

def loggedMetrics (engine : Engine) (names : List String) (context : Context) :
    List LogEntry × Except MetricError (KeyMap (Option Float)) :=
  let (result, cache) := (engine.evaluateMetrics names context).run.run .empty
  (cache.log ++ LogEntry.ofResult (fun values => .metricsEvaluated values.size cache) result,
    result)

theorem loggedMetrics_snd (engine : Engine) (names : List String) (context : Context) :
    (engine.loggedMetrics names context).2 =
      ((engine.evaluateMetrics names context).run.run .empty).1 := rfl

def loggedQuery (engine : Engine) (query : PivotQuery) :
    List LogEntry × Except MetricError (List PivotRow) :=
  match engine.loadedRows query.factTable with
  | .error error => ([], .error error)
  | .ok rows =>
      let (result, cache) := (engine.pivotRows query rows).run.run .empty
      let cells (output : List PivotRow) : Nat := output.length * query.metrics.length
      (.rowsGrouped query (engine.groups query rows).length :: cache.log ++
        LogEntry.ofResult (fun output => .cellsEvaluated (cells output) cache) result, result)

theorem loggedQuery_snd (engine : Engine) (query : PivotQuery) :
    (engine.loggedQuery query).2 = engine.runQuery query := by
  unfold loggedQuery runQuery
  cases engine.loadedRows query.factTable <;> rfl

end Engine

end MetricLayer
