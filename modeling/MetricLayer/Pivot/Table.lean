import MetricLayer.Pivot
import MetricLayer.Value

namespace MetricLayer

def padRight (width : Nat) (text : String) : String :=
  text ++ String.ofList (List.replicate (width - text.length) ' ')

theorem length_padRight (width : Nat) (text : String) :
    (padRight width text).length = max width text.length := by
  simp only [padRight, String.length_append, String.length_ofList, List.length_replicate]
  omega

structure TextTable where
  headers : List String
  body : List (List String)
deriving DecidableEq, Repr

namespace TextTable

def columnWidth (table : TextTable) (column : Nat) (header : String) : Nat :=
  (table.body.filterMap (·[column]?)).foldl (fun width cell => max width cell.length) header.length

def widths (table : TextTable) : List Nat := table.headers.mapIdx table.columnWidth

/-- Cells without a column are left out. -/
def line (widths : List Nat) (cells : List String) : String :=
  "  ".intercalate (List.zipWith padRight widths cells)

def rule (widths : List Nat) : List String :=
  widths.map fun width => String.ofList (List.replicate width '-')

def lines (table : TextTable) : List String :=
  (table.headers :: rule table.widths :: table.body).map (line table.widths)

end TextTable

namespace PivotRow

def names (row : PivotRow) : List String :=
  (row.dimensions ++ row.labels).map (·.1) ++ row.cells.map (·.name)

/-- Null is shown as an empty cell. -/
def texts (row : PivotRow) : List String :=
  (row.dimensions ++ row.labels).map (fun (_, value) => if value.isNull then "" else value.text) ++
    row.cells.map fun cell => cell.display.getD ""

end PivotRow

/-- The table of a query's answer; nothing if there are no rows. -/
def TextTable.ofRows? : List PivotRow → Option TextTable
  | [] => none
  | first :: rest => some ⟨first.names, (first :: rest).map PivotRow.texts⟩

end MetricLayer
