import MetricLayer.KeyMap

/-!
# Paths in a graph of names

`path?` walks a graph in breadth: it finds a shortest way of one step or more from one name to
another, and among the shortest ones the first in the order of the successor lists.

Names that reach one another make up a group. `cyclesOf` reports one closed path for each group that
has any, whichever way the groups were found; `components` is one way to find them.
-/

namespace MetricLayer.Graph

abbrev Successors := String → List String

def unseen (seen names : List String) : List String :=
  (names.filter fun name => !seen.contains name).eraseDups

/-- The queue holds ways from the start, each with its last name first, to all names that have been
seen and not yet left. The number bounds the names that can be left. -/
def search? (next : Successors) (target : String) :
    Nat → List (List String) → List String → Option (List String)
  | 0, _, _ => none
  | _ + 1, [], _ => none
  | bound + 1, way :: queue, seen =>
      let names := way.head?.elim [] next
      if names.contains target then some (target :: way).reverse
      else
        let fresh := unseen seen names
        search? next target bound (queue ++ fresh.map (· :: way)) (seen ++ fresh)

def path? (next : Successors) (size : Nat) (start target : String) : Option (List String) :=
  search? next target (size + 1) [[start]] [start]

def reaches (next : Successors) (size : Nat) (start target : String) : Bool :=
  (path? next size start target).isSome

/-- Splits the names of a graph into groups of names that reach one another. -/
abbrev Grouping := Successors → List String → List (List String)

/-- The names that a name reaches and that reach it; a name on no cycle is alone. -/
def groupOf (next : Successors) (names : List String) (name : String) : List String :=
  if reaches next names.length name name then
    names.filter fun other =>
      reaches next names.length name other && reaches next names.length other name
  else [name]

/-- Each group stands at the place of its first name. -/
def components : Grouping := fun next names =>
  names.filterMap fun name =>
    let group := groupOf next names name
    if group.head? = some name then some group else none

/-- A group of several names has a cycle, and so has a name with a step to itself. -/
def isCyclic (next : Successors) : List String → Bool
  | [name] => (next name).contains name
  | group => 1 < group.length

/-- The steps that do not leave a group. -/
def within (next : Successors) (group : List String) : Successors :=
  fun name => (next name).filter group.contains

/-- A closed path within a group, from the first of its names in the order of names. -/
def closedPath? (next : Successors) (group : List String) : Option (List String) := do
  let start ← (KeyMap.sortNames group).head?
  path? (within next group) group.length start start

def insertPath (path : List String) : List (List String) → List (List String)
  | [] => [path]
  | head :: rest => if path < head then path :: head :: rest else head :: insertPath path rest

def sortPaths (paths : List (List String)) : List (List String) := paths.foldr insertPath []

def cyclesOf (next : Successors) (groups : List (List String)) : List (List String) :=
  sortPaths ((groups.filter (isCyclic next)).filterMap (closedPath? next))

end MetricLayer.Graph
