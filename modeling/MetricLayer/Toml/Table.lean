import MetricLayer.Toml.Tree

/-!
# Tables of TOML texts

A document grows a tree of tables. A table is implied when only tables inside it have been named,
opened when a header has named it, and dotted when a key with dots has made it. Headers may go
through any table and open an implied one; keys with dots may go through implied and dotted tables
and through the last table of an array, and assign only in dotted ones. Nothing is ever assigned
twice.
-/

namespace MetricLayer.Toml

inductive Origin where
  | implied
  | opened
  | dotted
deriving DecidableEq, Repr

inductive Node where
  | value (value : Tree)
  | table (origin : Origin) (entries : List (String × Node))
  | tables (items : List (List (String × Node)))
deriving Inhabited

abbrev Entries := List (String × Node)

mutual

def Node.toTree : Node → Tree
  | .value value => value
  | .table _ entries => .table (entriesToTrees entries)
  | .tables items => .array (tablesToTrees items)

def tablesToTrees : List (List (String × Node)) → List Tree
  | [] => []
  | entries :: rest => .table (entriesToTrees entries) :: tablesToTrees rest

def entriesToTrees : List (String × Node) → List (String × Tree)
  | [] => []
  | (name, node) :: rest => (name, node.toTree) :: entriesToTrees rest

end

/-- Changes the entry of that name, given its node if there is one, or adds one at the end. -/
def update? (name : String) (change : Option Node → Option Node) : Entries → Option Entries
  | [] => (change none).map fun node => [(name, node)]
  | (held, node) :: rest =>
      if held = name then (change (some node)).map fun node => (held, node) :: rest
      else (update? name change rest).map ((held, node) :: ·)

/-- Changes the last table of an array of tables. -/
def updateLast? (change : Entries → Option Entries) : List Entries → Option (List Entries)
  | [] => none
  | [last] => (change last).map ([·])
  | first :: rest => (updateLast? change rest).map (first :: ·)

/-- Goes through the tables of a path and changes the entries of the last one. -/
def descend? (change : Entries → Option Entries) : List String → Entries → Option Entries
  | [], entries => change entries
  | name :: rest, entries =>
      let inner := descend? change rest
      update? name (fun
        | none => (inner []).map (.table .implied)
        | some (.table origin entries) => (inner entries).map (.table origin)
        | some (.tables items) => (updateLast? inner items).map .tables
        | some (.value _) => none) entries

/-- A header opens a table that is new or implied. -/
def openTable? (path : List String) (name : String) : Entries → Option Entries :=
  descend? (update? name fun
    | none => some (.table .opened [])
    | some (.table .implied entries) => some (.table .opened entries)
    | some _ => none) path

/-- A header of an array adds a table at its end. -/
def appendTable? (path : List String) (name : String) : Entries → Option Entries :=
  descend? (update? name fun
    | none => some (.tables [[]])
    | some (.tables items) => some (.tables (items ++ [[]]))
    | some _ => none) path

def addNew? (name : String) (value : Tree) : Entries → Option Entries :=
  update? name fun
    | none => some (.value value)
    | some _ => none

/-- Assigns a value under a key with the given tables in front of its name. -/
def assign? (value : Tree) (name : String) : List String → Entries → Option Entries
  | [], entries => addNew? name value entries
  | table :: rest, entries =>
      let inner := assign? value name rest
      update? table (fun
        | none => (inner []).map (.table .dotted)
        | some (.table .dotted entries) => (inner entries).map (.table .dotted)
        | some (.table .implied entries) =>
            if rest = [] then none else (inner entries).map (.table .implied)
        | some (.tables items) => if rest = [] then none else (updateLast? inner items).map .tables
        | some _ => none) entries

/-- Assigns a value in the table that the last header named. -/
def assignIn? (header path : List String) (name : String) (value : Tree) :
    Entries → Option Entries :=
  descend? (assign? value name path) header

end MetricLayer.Toml
