import MetricLayer.Rows
import MetricLayer.Json.Basic

namespace MetricLayer

structure LabelLookup where
  dimension : String
  table : String
  key : String
  label : String
  shownAs : String
deriving DecidableEq, Repr, Inhabited

namespace LabelLookup

/-- The label in the first row whose key is the value; a row without a label gives null. -/
def resolve? (lookup : LabelLookup) (value : Value) (database : Database) : Option Value := do
  let rows ← database.get? lookup.table
  let row ← rows.find? fun row => row.cell lookup.key == value
  some (row.cell lookup.label)

/-- The label of a lookup among dimension values. A dimension that is absent or null has none. -/
def label? (lookup : LabelLookup) (dimensions : List (String × Value)) (database : Database) :
    Option (String × Value) := do
  let value ← dimensions.lookup lookup.dimension
  if value.isNull then none
  else
    let label ← lookup.resolve? value database
    some (lookup.shownAs, label)

def fields : List String := ["dimension", "table", "key", "label", "alias"]

def ofJson? (tree : Json) : Option LabelLookup := do
  let members ← tree.record? fields .ignored
  let text (name : String) : Option String := Json.required? members name Json.string?
  some ⟨← text "dimension", ← text "table", ← text "key", ← text "label", ← text "alias"⟩

end LabelLookup

def resolveLabels (lookups : List LabelLookup) (dimensions : List (String × Value))
    (database : Database) : List (String × Value) :=
  lookups.filterMap fun lookup => lookup.label? dimensions database

end MetricLayer
