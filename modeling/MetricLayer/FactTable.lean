import MetricLayer.Display
import MetricLayer.KeyMap
import MetricLayer.Metric.Error

namespace MetricLayer

/-- How the numbers of a column become one number. -/
inductive Aggregation where
  | sum
  | avg
  | count
deriving DecidableEq, Repr

namespace Aggregation

def name : Aggregation → String
  | sum => "sum"
  | avg => "avg"
  | count => "count"

def all : List Aggregation := [sum, avg, count]

def ofName? (text : String) : Option Aggregation :=
  all.find? fun aggregation => aggregation.name == text

def ofTag (text : String) : Except MetricError Aggregation :=
  match Text.tag text with
  | "sum" => .ok sum
  | "avg" | "average" | "mean" => .ok avg
  | "count" => .ok count
  | _ => .error (.unsupportedAggregation text)

def inspect : Aggregation → String
  | sum => "Sum"
  | avg => "Avg"
  | count => "Count"

end Aggregation

structure Measure where
  column : String
  aggregation : Aggregation
  format : Option ValueFormat
deriving DecidableEq, Repr

/-- The grain is the dimensions that identify one row. -/
structure FactTable where
  name : String
  grain : List String
  measures : KeyMap Measure
deriving Inhabited

end MetricLayer
