import MetricLayer.Json.Basic

namespace MetricLayer.Toml

/-- An integer or a floating-point number may be written so that it has no value; that matters only
to those who look at it. -/
inductive Tree where
  | bool (value : Bool)
  | integer (value : Option Int)
  | float (value : Option Float)
  | string (value : String)
  | moment (text : String)
  | array (items : List Tree)
  | table (members : List (String × Tree))
deriving Inhabited

/-- How a reader goes through a tree. It sees all of it: `whole` takes integers of up to 128 bits
and `narrow` those of up to 64. Only of a record that is written as an array it does not see what
follows the last field. -/
inductive Shape where
  | whole
  | narrow
  | record (fields : List (String × Shape))
  | list (item : Shape)
  | entries (value : Shape)
deriving Inhabited

namespace Shape

/-- A record none of whose fields has a shape of its own. -/
def flat (names : List String) : Shape := .record (names.map fun name => (name, .whole))

def admits : Shape → Int → Bool
  | narrow, n => decide (Json.int64Min ≤ n) && decide (n ≤ Json.uint64Max)
  | _, n => decide (-170141183460469231731687303715884105728 ≤ n) &&
      decide (n ≤ 340282366920938463463374607431768211455)

/-- The shapes of the items that are seen of an array. -/
def ofItems (count : Nat) : Shape → List Shape
  | record fields => fields.map (·.2)
  | list item => List.replicate count item
  | narrow => List.replicate count narrow
  | whole | entries _ => List.replicate count whole

/-- The shape of a member of a table. -/
def ofMember (name : String) : Shape → Shape
  | record fields => (fields.lookup name).getD whole
  | entries value => value
  | narrow => narrow
  | whole | list _ => whole

end Shape

mutual

/-- What a reader sees of a tree, if every number that it looks at has a value. A date or time is
seen as a record with a member of its own, which no definition knows. -/
def Tree.toJson? (shape : Shape) : Tree → Option Json
  | .bool value => some (.bool value)
  | .integer value => (value.filter shape.admits).map .int
  | .float value => value.map .float
  | .string value => some (.string value)
  | .moment text => some (.object [("datetime", .string text)])
  | .array items => (itemsToJson? items (shape.ofItems items.length)).map .array
  | .table members => (membersToJson? shape members).map .object

def itemsToJson? : List Tree → List Shape → Option (List Json)
  | item :: items, shape :: shapes => do
      let item ← item.toJson? shape
      let items ← itemsToJson? items shapes
      some (item :: items)
  | _, _ => some []

def membersToJson? (shape : Shape) : List (String × Tree) → Option (List (String × Json))
  | [] => some []
  | (name, tree) :: members => do
      let tree ← tree.toJson? (shape.ofMember name)
      let members ← membersToJson? shape members
      some ((name, tree) :: members)

end

end MetricLayer.Toml
