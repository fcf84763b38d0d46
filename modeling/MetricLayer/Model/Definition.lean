import MetricLayer.Metric.Aggregate
import MetricLayer.Registry
import MetricLayer.Label

/-!
# Model definitions

The records of a model file, as they are written: formats and aggregations are still tags, and which
members of a metric must be there is not yet known. A member that is not part of its record is
refused, except in label lookups, combinations and aggregates.
-/

namespace MetricLayer

structure MeasureDefinition where
  column : Option String
  aggregation : Option String
  format : Option String
deriving DecidableEq, Repr

structure FactTableDefinition where
  grain : List String
  measures : KeyMap MeasureDefinition
deriving Inhabited

structure MetricDefinition where
  kind : String
  description : Option String
  format : Option String
  factTable : Option String
  measure : Option String
  aggregation : Option String
  grain : Option (List String)
  aggregate : Option Aggregate
  dependsOn : List String
  combine : Option Combine
  base : Option String
  transform : Option String
deriving DecidableEq, Repr

structure ModelDefinition where
  factTables : KeyMap FactTableDefinition
  metrics : KeyMap MetricDefinition
  labels : List LabelLookup
deriving Inhabited

namespace Json

def texts? (members : List (String × Json)) (name : String) : Option (Option String) :=
  optional? members name string?

def keyMap? {α : Type} (decode : Json → Option α) (tree : Json) : Option (KeyMap α) :=
  (tree.entries? decode).map KeyMap.ofList

end Json

def MeasureDefinition.fields : List String := ["column", "agg", "format"]

def MeasureDefinition.ofJson? (tree : Json) : Option MeasureDefinition := do
  let members ← tree.record? fields .refused
  some ⟨← Json.texts? members "column", ← Json.texts? members "agg",
    ← Json.texts? members "format"⟩

def FactTableDefinition.ofJson? (tree : Json) : Option FactTableDefinition := do
  let members ← tree.record? ["grain", "measures"] .refused
  let grain ← Json.withDefault? members "grain" Json.strings? []
  let measures ← Json.withDefault? members "measures" (Json.keyMap? MeasureDefinition.ofJson?)
    KeyMap.empty
  some ⟨grain, measures⟩

def MetricDefinition.fields : List String :=
  ["kind", "description", "format", "fact_table", "measure", "agg", "grain", "aggregate",
    "depends_on", "combine", "base", "transform"]

def MetricDefinition.ofJson? (tree : Json) : Option MetricDefinition := do
  let members ← tree.record? fields .refused
  let kind ← Json.withDefault? members "kind" Json.string? ""
  let description ← Json.texts? members "description"
  let format ← Json.texts? members "format"
  let factTable ← Json.texts? members "fact_table"
  let measure ← Json.texts? members "measure"
  let aggregation ← Json.texts? members "agg"
  let grain ← Json.optional? members "grain" Json.strings?
  let aggregate ← Json.optional? members "aggregate" Aggregate.ofJson?
  let dependsOn ← Json.withDefault? members "depends_on" Json.strings? []
  let combine ← Json.optional? members "combine" Combine.ofJson?
  let base ← Json.texts? members "base"
  let transform ← Json.texts? members "transform"
  some { kind, description, format, factTable, measure, aggregation, grain, aggregate, dependsOn,
         combine, base, transform }

def ModelDefinition.ofJson? (tree : Json) : Option ModelDefinition := do
  let members ← tree.record? ["fact_tables", "metrics", "labels"] .refused
  let factTables ← Json.withDefault? members "fact_tables"
    (Json.keyMap? FactTableDefinition.ofJson?) KeyMap.empty
  let metrics ← Json.withDefault? members "metrics" (Json.keyMap? MetricDefinition.ofJson?)
    KeyMap.empty
  let labels ← Json.withDefault? members "labels"
    (fun tree => tree.array? >>= fun items => items.mapM LabelLookup.ofJson?) []
  some ⟨factTables, metrics, labels⟩

end MetricLayer
