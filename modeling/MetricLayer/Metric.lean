import MetricLayer.FactTable
import MetricLayer.Metric.Combine
import MetricLayer.Rows
import MetricLayer.Text.Visible

namespace MetricLayer

abbrev Aggregator := RowSet → Database → Context → Option Float

abbrev Combinator := DependencyValues → Database → Context → Option Float

structure FactMetric where
  factTable : String
  measure : String
  aggregation : Option Aggregation
  grain : Option (List String)
deriving DecidableEq, Repr

structure ExpressionMetric where
  factTable : String
  grain : Option (List String)
  aggregator : Aggregator

structure DerivedMetric where
  dependsOn : List String
  combinator : Combinator

structure TransformMetric where
  base : String
  transform : String
deriving DecidableEq, Repr

inductive MetricKind where
  | fact (metric : FactMetric)
  | expression (metric : ExpressionMetric)
  | derived (metric : DerivedMetric)
  | transform (metric : TransformMetric)

def MetricKind.name : MetricKind → String
  | fact _ => "fact"
  | expression _ => "expression"
  | derived _ => "derived"
  | transform _ => "transform"

structure Metric where
  name : String
  description : Option String
  format : Option ValueFormat
  kind : MetricKind

namespace Metric

def ofKind (name : String) (kind : MetricKind) : Metric := ⟨name, none, none, kind⟩

def fact (name factTable measure : String) : Metric :=
  ofKind name (.fact ⟨factTable, measure, none, none⟩)

def expression (name factTable : String) (aggregator : Aggregator) : Metric :=
  ofKind name (.expression ⟨factTable, none, aggregator⟩)

def derived (name : String) (dependsOn : List String) (combinator : Combinator) : Metric :=
  ofKind name (.derived ⟨dependsOn, combinator⟩)

def transform (name base transform : String) : Metric := ofKind name (.transform ⟨base, transform⟩)

/-- Another aggregation than that of the measure; metrics of other kinds have none. -/
def withAggregation (metric : Metric) (aggregation : Aggregation) : Metric :=
  match metric.kind with
  | .fact fact => { metric with kind := .fact { fact with aggregation := some aggregation } }
  | _ => metric

/-- Another grain than that of the fact table; metrics that read none have none. -/
def withGrain (metric : Metric) (grain : List String) : Metric :=
  match metric.kind with
  | .fact fact => { metric with kind := .fact { fact with grain := some grain } }
  | .expression expression =>
      { metric with kind := .expression { expression with grain := some grain } }
  | _ => metric

def dependencies (metric : Metric) : List String :=
  match metric.kind with
  | .derived derived => derived.dependsOn
  | .transform transform => [transform.base]
  | _ => []

def factTable? (metric : Metric) : Option String :=
  match metric.kind with
  | .fact fact => some fact.factTable
  | .expression expression => some expression.factTable
  | _ => none

end Metric

def braces (name : String) (fields : List String) : String :=
  name ++ " \x7b " ++ ", ".intercalate fields ++ " \x7d"

def inspectOption {α : Type} (inspect : α → String) : Option α → String
  | none => "None"
  | some value => "Some(" ++ inspect value ++ ")"

/-- How an expression or a derived metric computes its number cannot be shown; two dots say so. -/
def MetricKind.inspect : MetricKind → String
  | fact metric => "FactMeasure(" ++ braces "FactMeasureMetric" [
      "fact_table: " ++ Text.quoted metric.factTable,
      "measure: " ++ Text.quoted metric.measure,
      "aggregation: " ++ inspectOption Aggregation.inspect metric.aggregation,
      "grain: " ++ inspectOption Text.quotedList metric.grain] ++ ")"
  | expression metric => braces "Expression" [
      "fact_table: " ++ Text.quoted metric.factTable,
      "grain: " ++ inspectOption Text.quotedList metric.grain,
      ".."]
  | derived metric => braces "Derived" ["depends_on: " ++ Text.quotedList metric.dependsOn, ".."]
  | transform metric => "ContextTransform(" ++ braces "ContextTransformMetric" [
      "base: " ++ Text.quoted metric.base,
      "transform: " ++ Text.quoted metric.transform] ++ ")"

def Metric.inspect (metric : Metric) : String := braces "Metric" [
  "name: " ++ Text.quoted metric.name,
  "description: " ++ inspectOption Text.quoted metric.description,
  "format: " ++ inspectOption ValueFormat.inspect metric.format,
  "kind: " ++ metric.kind.inspect]

def inspectTransforms (names : List String) : String :=
  braces "TransformRegistry" ["transforms: " ++ Text.quotedList names]

end MetricLayer
