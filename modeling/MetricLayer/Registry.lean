import MetricLayer.Metric
import MetricLayer.Context.Transform
import MetricLayer.Registry.Graph

namespace MetricLayer

structure Registry where
  factTables : KeyMap FactTable
  metrics : KeyMap Metric
  transforms : Transforms
deriving Inhabited

namespace Registry

/-- The dependencies of a metric that are registered, in order. -/
def successors (metrics : KeyMap Metric) (name : String) : List String :=
  match metrics.get? name with
  | none => []
  | some metric => KeyMap.sortNames (metric.dependencies.filter metrics.contains)

/-- The cycles among the metrics, with their names grouped that way. -/
def cyclesBy (grouping : Graph.Grouping) (registry : Registry) : List (List String) :=
  let next := successors registry.metrics
  Graph.cyclesOf next (grouping next registry.metrics.keys)

def cycles (registry : Registry) : List (List String) := registry.cyclesBy Graph.components

/-- The first name that was already taken by an earlier metric. -/
def repeatedName? : List String → List Metric → Option String
  | _, [] => none
  | taken, metric :: rest =>
      if taken.contains metric.name then some metric.name
      else repeatedName? (metric.name :: taken) rest

/-- Of two fact tables with one name the later one counts. -/
def buildBy (grouping : Graph.Grouping) (factTables : List FactTable) (metrics : List Metric)
    (transforms : Transforms) : Except MetricError Registry :=
  match repeatedName? [] metrics with
  | some name => .error (.duplicateMetric name)
  | none =>
      let registry : Registry := {
        factTables := KeyMap.ofList (factTables.map fun table => (table.name, table))
        metrics := KeyMap.ofList (metrics.map fun metric => (metric.name, metric))
        transforms }
      match registry.cyclesBy grouping with
      | [] => .ok registry
      | cycle :: _ => .error (.cyclicDefinition cycle)

def build (factTables : List FactTable) (metrics : List Metric) (transforms : Transforms) :
    Except MetricError Registry :=
  buildBy Graph.components factTables metrics transforms

def measure? (registry : Registry) (factTable measure : String) : Option Measure := do
  let table ← registry.factTables.get? factTable
  table.measures.get? measure

/-- The format of a metric: its own, else that of its measure, else that of the metric that it
transforms. The number bounds the metrics on the way. -/
def formatWithin (registry : Registry) : Nat → String → Option ValueFormat
  | 0, _ => none
  | depth + 1, name => do
      let metric ← registry.metrics.get? name
      match metric.format, metric.kind with
      | some format, _ => some format
      | none, .fact fact => (registry.measure? fact.factTable fact.measure).bind Measure.format
      | none, .transform transform => registry.formatWithin depth transform.base
      | none, _ => none

def displayFormat? (registry : Registry) (name : String) : Option ValueFormat :=
  registry.formatWithin (registry.metrics.size + 1) name

/-- What a metric refers to and the registry does not hold. -/
def danglingIn (registry : Registry) (metric : Metric) : List MetricError :=
  match metric.kind with
  | .fact fact =>
      match registry.factTables.get? fact.factTable with
      | none => [.unknownFactTable fact.factTable]
      | some table =>
          if table.measures.contains fact.measure then []
          else [.unknownMeasure fact.factTable fact.measure]
  | .expression _ => []
  | .derived derived =>
      (derived.dependsOn.filter fun name => !registry.metrics.contains name).map .unknownMetric
  | .transform transform =>
      (if registry.metrics.contains transform.base then [] else [.unknownMetric transform.base]) ++
      (if registry.transforms.contains transform.transform then []
       else [.unknownTransform transform.transform])

/-- A fact table that the metric reads and that is not loaded. -/
def unloadedIn (database : Option Database) (metric : Metric) : Option MetricError := do
  let database ← database
  let table ← metric.factTable?
  if database.contains table then none else some (.unknownFactTable table)

/-- Every reference that leads nowhere, by metric name. A fact table that is not loaded is reported
once. -/
def danglingReferences (registry : Registry) (database : Option Database) : List MetricError :=
  registry.metrics.values.foldl (fun errors metric =>
    let found := errors ++ registry.danglingIn metric
    match unloadedIn database metric with
    | some error => if found.contains error then found else found ++ [error]
    | none => found) []

end Registry

end MetricLayer
