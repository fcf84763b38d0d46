import MetricLayer.Evaluation.Cache
import MetricLayer.Registry
import MetricLayer.Display

/-!
# Evaluating metrics

An engine evaluates the metrics of a registry over a database. `Engine.evaluate` asks the cache
first and stores what it computes; `Engine.value` is the same recursion without a cache.

Metrics can be nested no deeper than there are metrics, unless a definition leads back to itself, so
the depth of the recursion is bounded by the size of the registry.
-/

namespace MetricLayer

structure Engine where
  registry : Registry
  database : Database
  display : DisplaySettings
deriving Inhabited

namespace Engine

def factTable (engine : Engine) (name : String) : Except MetricError FactTable :=
  match engine.registry.factTables.get? name with
  | some table => .ok table
  | none => .error (.unknownFactTable name)

def loadedRows (engine : Engine) (name : String) : Except MetricError RowSet :=
  match engine.database.rowSet? name with
  | some rows => .ok rows
  | none => .error (.unknownFactTable name)

def aggregate (aggregation : Aggregation) (rows : RowSet) (column : String) : Option Float :=
  match aggregation with
  | .sum => some (rows.sum (·.number column))
  | .avg => rows.average? (·.number column)
  | .count => some (Float.ofNat rows.count)

def factValue (engine : Engine) (fact : FactMetric) (context : Context) :
    Except MetricError (Option Float) := do
  let table ← engine.factTable fact.factTable
  match table.measures.get? fact.measure with
  | none => .error (.unknownMeasure fact.factTable fact.measure)
  | some measure =>
      let rows ← engine.loadedRows fact.factTable
      let selected := rows.narrowToGrain context (fact.grain.getD table.grain)
      return aggregate (fact.aggregation.getD measure.aggregation) selected measure.column

def expressionGrain (engine : Engine) (expression : ExpressionMetric) :
    Except MetricError (List String) :=
  match expression.grain with
  | some grain => .ok grain
  | none => return (← engine.factTable expression.factTable).grain

def expressionValue (engine : Engine) (expression : ExpressionMetric) (context : Context) :
    Except MetricError (Option Float) := do
  let grain ← engine.expressionGrain expression
  let rows ← engine.loadedRows expression.factTable
  return expression.aggregator (rows.narrowToGrain context grain) engine.database context

def transformed (engine : Engine) (transform : String) (context : Context) :
    Except MetricError Context :=
  match engine.registry.transforms.get? transform with
  | some change => .ok (change context)
  | none => .error (.unknownTransform transform)

def metric (engine : Engine) (name : String) : Except MetricError Metric :=
  match engine.registry.metrics.get? name with
  | some metric => .ok metric
  | none => .error (.unknownMetric name)

/-- The value of a metric by recursion over its definition. -/
def valueWithin (engine : Engine) : Nat → String → Context → Except MetricError (Option Float)
  | 0, name, _ => .error (.cyclicDefinition [name])
  | depth + 1, name, context => do
      let metric ← engine.metric name
      match metric.kind with
      | .fact fact => engine.factValue fact context
      | .expression expression => engine.expressionValue expression context
      | .derived derived =>
          let entries ← derived.dependsOn.mapM fun dependency => do
            let value ← engine.valueWithin depth dependency context
            return (dependency, value)
          return derived.combinator (.ofList entries) engine.database context
      | .transform transform =>
          let changed ← engine.transformed transform.transform context
          engine.valueWithin depth transform.base changed

def maxDepth (engine : Engine) : Nat := engine.registry.metrics.size + 1

def value (engine : Engine) (name : String) (context : Context) :
    Except MetricError (Option Float) :=
  engine.valueWithin engine.maxDepth name context

/-- Looks the key up in the cache, and computes and stores its value if it is not there. A
computation that fails stores nothing. -/
def memoised (key : CacheKey) (compute : Evaluation (Option Float)) :
    Evaluation (Option Float) := do
  match ← modifyGet (·.look key) with
  | some value => return value
  | none =>
      let value ← compute
      modify (·.store key value)
      return value

def evaluateWithin (engine : Engine) : Nat → String → Context → Evaluation (Option Float)
  | 0, name, _ => throw (.cyclicDefinition [name])
  | depth + 1, name, context => memoised (.of name context) do
      let metric ← .ofExcept (engine.metric name)
      match metric.kind with
      | .fact fact => .ofExcept (engine.factValue fact context)
      | .expression expression => .ofExcept (engine.expressionValue expression context)
      | .derived derived =>
          let entries ← derived.dependsOn.mapM fun dependency => do
            let value ← engine.evaluateWithin depth dependency context
            return (dependency, value)
          return derived.combinator (.ofList entries) engine.database context
      | .transform transform =>
          let changed ← .ofExcept (engine.transformed transform.transform context)
          engine.evaluateWithin depth transform.base changed

def evaluate (engine : Engine) (name : String) (context : Context) : Evaluation (Option Float) :=
  engine.evaluateWithin engine.maxDepth name context

def evaluateMetric (engine : Engine) (name : String) (context : Context) :
    Except MetricError (Option Float) :=
  ((engine.evaluate name context).run.run .empty).1

/-- Several metrics under one context with one cache. The first error ends the evaluation. -/
def evaluateMetrics (engine : Engine) (names : List String) (context : Context) :
    Evaluation (KeyMap (Option Float)) := do
  let values ← names.mapM fun name => do
    let value ← engine.evaluate name context
    return (name, value)
  return KeyMap.ofList values

end Engine

end MetricLayer
