import MetricLayer.Evaluation
import MetricLayer.Label

/-!
# Pivot queries

A pivot query groups the rows of a fact table by some of its dimensions, after filtering them, and
evaluates metrics for each group. The values of a group overlay the filters of the query. One cache
serves the whole query.
-/

namespace MetricLayer

structure PivotQuery where
  factTable : String
  rows : List String
  filters : Context
  metrics : List String
  labels : List LabelLookup
deriving Inhabited

structure MetricCell where
  name : String
  value : Option Float
  display : Option String

structure PivotRow where
  dimensions : List (String × Value)
  labels : List (String × Value)
  cells : List MetricCell

namespace PivotRow

def dimension? (row : PivotRow) (name : String) : Option Value := row.dimensions.lookup name

def label? (row : PivotRow) (name : String) : Option Value := row.labels.lookup name

def cell? (row : PivotRow) (metric : String) : Option MetricCell :=
  row.cells.find? fun cell => cell.name == metric

def value? (row : PivotRow) (metric : String) : Option Float :=
  row.cell? metric >>= MetricCell.value

end PivotRow

def MetricCell.toJson (cell : MetricCell) : Json :=
  match cell.display, cell.value with
  | some text, _ => .string text
  | none, some x => .float x
  | none, none => .null

/-- Puts a member at the end, or in the place of one with the same name. -/
def putMember (name : String) (value : Json) : List (String × Json) → List (String × Json)
  | [] => [(name, value)]
  | (held, old) :: rest =>
      if held = name then (name, value) :: rest else (held, old) :: putMember name value rest

/-- One object with the dimensions, the labels and the display texts of the metrics. -/
def PivotRow.toJson (row : PivotRow) : Json :=
  let members :=
    (row.dimensions ++ row.labels).map (fun (name, value) => (name, value.toJson)) ++
      row.cells.map (fun cell => (cell.name, cell.toJson))
  .object (members.foldl (fun object (name, value) => putMember name value object) [])

/-- The text that tells groups apart: the JSON array of the dimension values in canonical form. -/
def groupKey (dimensions : List String) (row : Row) : String :=
  (Json.array (dimensions.map fun name => (row.cell name).canonical.toJson)).compact

namespace Engine

/-- The dimensions that base filters may constrain: the columns of the loaded rows and the declared
grain of the table. -/
def filterGrain (engine : Engine) (query : PivotQuery) (rows : RowSet) : List String :=
  let declared := (engine.registry.factTables.get? query.factTable).elim [] FactTable.grain
  KeyMap.sortNames (rows.columns ++ declared)

def groups (engine : Engine) (query : PivotQuery) (rows : RowSet) : List (String × List Row) :=
  (rows.narrowToGrain query.filters (engine.filterGrain query rows)).groupBy (groupKey query.rows)

/-- The values of a group, taken from its first row. -/
def groupDimensions (query : PivotQuery) (first : Row) : List (String × Value) :=
  query.rows.map fun name => (name, first.cell name)

/-- The context of a group: its values that are not null win over the filters of the query. -/
def groupContext (query : PivotQuery) (dimensions : List (String × Value)) : Context :=
  let present := dimensions.filter fun dimension => !dimension.2.isNull
  query.filters.overlay (KeyMap.ofList (present.map fun (name, value) => (name, .equals value)))

def metricCell (engine : Engine) (context : Context) (name : String) : Evaluation MetricCell := do
  let value ← engine.evaluate name context
  return ⟨name, value, Display.text? value (engine.registry.displayFormat? name) engine.display⟩

def pivotRow (engine : Engine) (query : PivotQuery) (first : Row) : Evaluation PivotRow := do
  let dimensions := groupDimensions query first
  let cells ← query.metrics.mapM (engine.metricCell (groupContext query dimensions))
  return ⟨dimensions, resolveLabels query.labels dimensions engine.database, cells⟩

def leaders (groups : List (String × List Row)) : List Row :=
  groups.filterMap fun group => group.2.head?

def pivotRows (engine : Engine) (query : PivotQuery) (rows : RowSet) :
    Evaluation (List PivotRow) :=
  (leaders (engine.groups query rows)).mapM (engine.pivotRow query)

/-- The answer to a query. The first error of a metric is the error of the query. -/
def runQuery (engine : Engine) (query : PivotQuery) : Except MetricError (List PivotRow) := do
  let rows ← engine.loadedRows query.factTable
  ((engine.pivotRows query rows).run.run .empty).1

end Engine

def PivotQuery.ofJson? (tree : Json) : Option PivotQuery := do
  let members ← tree.record? ["fact_table", "rows", "filters", "metrics", "labels"] .ignored
  let factTable ← Json.withDefault? members "fact_table" Json.string? ""
  let rows ← Json.withDefault? members "rows" Json.strings? []
  let filters ← Json.withDefault? members "filters" Context.ofJson? KeyMap.empty
  let metrics ← Json.withDefault? members "metrics" Json.strings? []
  let labels ← Json.withDefault? members "labels"
    (fun tree => tree.array? >>= fun items => items.mapM LabelLookup.ofJson?) []
  some ⟨factTable, rows, filters, metrics, labels⟩

end MetricLayer
