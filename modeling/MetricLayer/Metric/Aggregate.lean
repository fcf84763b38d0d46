import MetricLayer.Metric.Combine
import MetricLayer.Rows

namespace MetricLayer

inductive Aggregate where
  | distinctCount (column : String)
  | min (column : String)
  | max (column : String)
  | weightedAvg (value weight : String)
deriving DecidableEq, Repr

namespace Aggregate

/-- The smaller number; the first of two equal ones. A NaN gives way to any other number. -/
def smaller (x y : Float) : Float := if x.isNaN then y else if y < x then y else x

/-- The larger number; the first of two equal ones. A NaN gives way to any other number. -/
def larger (x y : Float) : Float := if x.isNaN then y else if x < y then y else x

def reduce? (combine : Float → Float → Float) : List Float → Option Float
  | [] => none
  | first :: rest => some (rest.foldl combine first)

def columns : Aggregate → List String
  | distinctCount column | min column | max column => [column]
  | weightedAvg value weight => [value, weight]

/-- The texts that tell cells apart: the JSON text of every cell that is not null, each once. -/
def distinctTexts (set : RowSet) (column : String) : List String :=
  KeyMap.sortNames ((set.rows.map (·.cell column)).filterMap fun value =>
    if value.isNull then none else some value.jsonText)

def numbersOf (set : RowSet) (column : String) : List Float :=
  set.rows.filterMap fun row => (row.cell column).number?

def weightedTotals (set : RowSet) (value weight : String) : Float × Float :=
  set.rows.foldl (fun (total, weights) row =>
    (total + row.number value * row.number weight, weights + row.number weight)) (0.0, 0.0)

def apply (aggregate : Aggregate) (set : RowSet) : Option Float :=
  match aggregate with
  | distinctCount column => some (Float.ofNat (distinctTexts set column).length)
  | min column => reduce? smaller (numbersOf set column)
  | max column => reduce? larger (numbersOf set column)
  | weightedAvg value weight =>
      let (total, weights) := weightedTotals set value weight
      divide? total (some weights)

def ofJson? (tree : Json) : Option Aggregate := do
  let (tag, rest) ← tree.operation?
  let column : Option String := do
    let members ← rest.record? ["column"] .ignored
    Json.required? members "column" Json.string?
  match tag with
  | "distinct_count" => column.map distinctCount
  | "min" => column.map min
  | "max" => column.map max
  | "weighted_avg" =>
      let (value, weight) ← rest.pair? "value" "weight"
      some (weightedAvg value weight)
  | _ => none

end Aggregate

end MetricLayer
