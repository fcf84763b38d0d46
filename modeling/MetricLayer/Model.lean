import MetricLayer.Model.Definition
import MetricLayer.Model.Error

/-!
# Models

A model is a registry with the label lookups that go with it. Making one from its definitions checks
them one by one, fact tables before metrics and each in the order of their names; the first thing
that is wrong is the error.
-/

namespace MetricLayer

structure Model where
  registry : Registry
  labels : List LabelLookup
deriving Inhabited

def formatOfTag (entity : Entity) (name : String) (tag : Option String) :
    Except LoadError (Option ValueFormat) :=
  match tag with
  | none => .ok none
  | some tag =>
      match ValueFormat.ofTag tag with
      | .ok format => .ok (some format)
      | .error error => .error (.invalidDefinition entity name error.message)

def aggregationOfTag (tag : String) : Except LoadError Aggregation :=
  (Aggregation.ofTag tag).mapError .metric

namespace FactTableDefinition

/-- The column of a measure is its name and its aggregation a sum, unless something else is said. -/
def measure (table : String) (name : String) (definition : MeasureDefinition) :
    Except LoadError Measure := do
  let aggregation ← aggregationOfTag (definition.aggregation.getD Aggregation.sum.name)
  let format ← formatOfTag .factTable table definition.format
  return ⟨definition.column.getD name, aggregation, format⟩

def factTable (name : String) (definition : FactTableDefinition) : Except LoadError FactTable := do
  if definition.grain.isEmpty then throw (.missingField "grain" .factTable name)
  let measures ← definition.measures.toList.mapM fun entry => do
    return (entry.1, ← measure name entry.1 entry.2)
  return ⟨name, definition.grain, KeyMap.ofList measures⟩

end FactTableDefinition

namespace MetricDefinition

def required {α : Type} (name field : String) (value : Option α) : Except LoadError α :=
  match value with
  | some value => .ok value
  | none => .error (.missingField field .metric name)

/-- The listed dependencies, followed by the operands that are not among them. -/
def dependencies (dependsOn : List String) (combine : Combine) : List String :=
  combine.referenced.foldl (fun names name =>
    if names.contains name then names else names ++ [name]) dependsOn

def factMetric (name : String) (definition : MetricDefinition) : Except LoadError Metric := do
  let factTable ← required name "fact_table" definition.factTable
  let measure ← required name "measure" definition.measure
  let metric := Metric.fact name factTable measure
  match definition.aggregation with
  | none => return metric
  | some tag => return metric.withAggregation (← aggregationOfTag tag)

def expressionMetric (name : String) (definition : MetricDefinition) :
    Except LoadError Metric := do
  let factTable ← required name "fact_table" definition.factTable
  let aggregate ← required name "aggregate" definition.aggregate
  return Metric.expression name factTable fun rows _ _ => aggregate.apply rows

def derivedMetric (name : String) (definition : MetricDefinition) : Except LoadError Metric := do
  let combine ← required name "combine" definition.combine
  match dependencies definition.dependsOn combine with
  | [] => throw (.invalidDefinition .metric name "derived metric has no dependencies")
  | names => return Metric.derived name names fun values _ _ => combine.apply values

def transformMetric (name : String) (definition : MetricDefinition) :
    Except LoadError Metric := do
  let base ← required name "base" definition.base
  let transform ← required name "transform" definition.transform
  return Metric.transform name base transform

def ofKind (name : String) (definition : MetricDefinition) : Except LoadError Metric :=
  match definition.kind with
  | "fact" => factMetric name definition
  | "expression" => expressionMetric name definition
  | "derived" => derivedMetric name definition
  | "transform" => transformMetric name definition
  | other => .error (.invalidDefinition .metric name
      ("unknown kind '" ++ other ++ "', expected fact, expression, derived or transform"))

def metric (name : String) (definition : MetricDefinition) : Except LoadError Metric := do
  let format ← formatOfTag .metric name definition.format
  let metric ← ofKind name definition
  let metric := definition.grain.elim metric metric.withGrain
  return { metric with description := definition.description, format }

end MetricDefinition

namespace ModelDefinition

def model (definition : ModelDefinition) (keys : TimeKeys) : Except LoadError Model := do
  let factTables ← definition.factTables.toList.mapM fun entry =>
    entry.2.factTable entry.1
  let metrics ← definition.metrics.toList.mapM fun entry => entry.2.metric entry.1
  let registry ← (Registry.build factTables metrics (.builtin keys)).mapError .metric
  return ⟨registry, definition.labels⟩

end ModelDefinition

end MetricLayer
