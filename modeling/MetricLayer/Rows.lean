import MetricLayer.Context

/-!
# Rows and row sets

A row set is a table seen through a stack of conditions: it holds the rows that meet all of them, in
the order of the table. Narrowing a set adds a condition; rows are looked at only when the set is
summed, counted, averaged or grouped.
-/

namespace MetricLayer

abbrev Row := KeyMap Value

/-- A missing cell reads as null. -/
def Row.cell (row : Row) (column : String) : Value := (row.get? column).getD .null

def Row.number (row : Row) (column : String) : Float := (row.cell column).numberOrZero

def addToGroups {κ α : Type} [DecidableEq κ] (key : κ) (item : α) :
    List (κ × List α) → List (κ × List α)
  | [] => [(key, [item])]
  | (name, items) :: rest =>
      if name = key then (name, items ++ [item]) :: rest
      else (name, items) :: addToGroups key item rest

/-- The items by key, groups in the order of their first items. -/
def groupBy {κ α : Type} [DecidableEq κ] (key : α → κ) (items : List α) : List (κ × List α) :=
  items.foldl (fun groups item => addToGroups (key item) item groups) []

structure RowSet where
  source : List Row
  conditions : List (Row → Bool)
deriving Inhabited

namespace RowSet

def ofRows (rows : List Row) : RowSet := ⟨rows, []⟩

def narrow (set : RowSet) (condition : Row → Bool) : RowSet :=
  { set with conditions := set.conditions ++ [condition] }

def admits (set : RowSet) (row : Row) : Bool := set.conditions.all (· row)

def rows (set : RowSet) : List Row := set.source.filter set.admits

def indexed (set : RowSet) : List (Row × Nat) := set.source.zipIdx.filter (set.admits ·.1)

/-- Sums from left to right. The sum of no numbers is a negative zero. -/
def sumFloats (numbers : List Float) : Float := numbers.foldl (· + ·) (-0.0)

def sum (set : RowSet) (number : Row → Float) : Float := sumFloats (set.rows.map number)

def average? (set : RowSet) (number : Row → Float) : Option Float :=
  match set.rows with
  | [] => none
  | rows => some ((rows.map number).foldl (· + ·) 0.0 / Float.ofNat rows.length)

def count (set : RowSet) : Nat := set.rows.length

def isEmpty (set : RowSet) : Bool := set.rows.isEmpty

def groupBy {κ : Type} [DecidableEq κ] (set : RowSet) (key : Row → κ) : List (κ × List Row) :=
  MetricLayer.groupBy key set.rows

/-- The names of all cells, in order and each once. -/
def columns (set : RowSet) : List String :=
  KeyMap.sortNames (set.rows.flatMap KeyMap.keys)

def inspect (set : RowSet) : String :=
  "RowSet \x7b source_rows: " ++ toString set.source.length ++ ", predicates: " ++
    toString set.conditions.length ++ " \x7d"

def meets (dimension : String) (filter : Filter) (row : Row) : Bool :=
  filter.holds (row.cell dimension)

/-- Narrows the set by the filters of the context whose dimensions belong to the grain. Other
dimensions, and filters that ask for null, do not constrain it. -/
def narrowToGrain (set : RowSet) (context : Context) (grain : List String) : RowSet :=
  context.toList.foldl (fun set (dimension, filter) =>
    if filter.isNull || !grain.contains dimension then set
    else set.narrow (meets dimension filter)) set

theorem rows_ofRows (rows : List Row) : (ofRows rows).rows = rows := by
  simp [ofRows, RowSet.rows, admits]

theorem rows_narrow (set : RowSet) (condition : Row → Bool) :
    (set.narrow condition).rows = set.rows.filter condition := by
  simp only [RowSet.rows, narrow, List.filter_filter]
  congr 1
  funext row
  simp [admits, Bool.and_comm]

end RowSet

/-- The loaded tables by name: the rows of fact tables and of the tables that labels are looked up
in. -/
abbrev Database := KeyMap (List Row)

namespace Database

def rowSet? (database : Database) (table : String) : Option RowSet :=
  (database.get? table).map RowSet.ofRows

/-- A row is an object of primitives; of two cells with one name the later one counts. -/
def rowOfJson? : Json → Option Row
  | .object members => do
      let cells ← members.mapM fun (column, tree) => do
        let value ← Value.ofJson? tree
        some (column, value)
      some (KeyMap.ofList cells)
  | _ => none

def tableOfJson? : Json → Option (List Row)
  | .array rows => rows.mapM rowOfJson?
  | _ => none

def ofJson? : Json → Option Database
  | .object members => do
      let tables ← members.mapM fun (name, tree) => do
        let rows ← tableOfJson? tree
        some (name, rows)
      some (KeyMap.ofList tables)
  | _ => none

def ofText? (text : String) : Option Database := Json.parse? text >>= ofJson?

end Database

end MetricLayer
