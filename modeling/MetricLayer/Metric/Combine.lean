import MetricLayer.Json.Basic

namespace MetricLayer

/-- The values that a derived metric combines, in the order in which their names were first put in.
Putting a name in again replaces its value and keeps its place. -/
structure DependencyValues where
  entries : List (String × Option Float)
deriving Inhabited

namespace DependencyValues

def empty : DependencyValues := ⟨[]⟩

def insertEntry (name : String) (value : Option Float) :
    List (String × Option Float) → List (String × Option Float)
  | [] => [(name, value)]
  | (held, old) :: rest =>
      if held = name then (name, value) :: rest else (held, old) :: insertEntry name value rest

def insert (values : DependencyValues) (name : String) (value : Option Float) :
    DependencyValues :=
  ⟨insertEntry name value values.entries⟩

def ofList (entries : List (String × Option Float)) : DependencyValues :=
  entries.foldl (fun values entry => values.insert entry.1 entry.2) empty

/-- The value of a dependency; nothing if it is null or not there. -/
def get? (values : DependencyValues) (name : String) : Option Float :=
  (values.entries.lookup name).join

def getOrZero (values : DependencyValues) (name : String) : Float := (values.get? name).getD 0.0

def names (values : DependencyValues) : List String := values.entries.map (·.1)

/-- Every value in order, null as zero. -/
def numbers (values : DependencyValues) : List Float :=
  values.entries.map fun entry => entry.2.getD 0.0

def size (values : DependencyValues) : Nat := values.entries.length

end DependencyValues

def divide? (numerator : Float) (denominator : Option Float) : Option Float :=
  match denominator with
  | some divisor => if divisor == 0.0 then none else some (numerator / divisor)
  | none => none

/-- A null dependency counts as zero, except as a divisor: to divide by null or zero gives null. -/
inductive Combine where
  | sum
  | product
  | difference (minuend subtrahend : String)
  | ratio (numerator denominator : String)
  | percent (numerator denominator : String)
  | growth (current previous : String)
deriving DecidableEq, Repr

namespace Combine

def referenced : Combine → List String
  | sum | product => []
  | difference first second | ratio first second | percent first second
  | growth first second => [first, second]

def apply (combine : Combine) (values : DependencyValues) : Option Float :=
  match combine with
  | sum => some (values.numbers.foldl (· + ·) (-0.0))
  | product => some (values.numbers.foldl (· * ·) 1.0)
  | difference minuend subtrahend => some (values.getOrZero minuend - values.getOrZero subtrahend)
  | ratio numerator denominator =>
      divide? (values.getOrZero numerator) (values.get? denominator)
  | percent numerator denominator =>
      (divide? (values.getOrZero numerator) (values.get? denominator)).map (· * 100.0)
  | growth current previous =>
      (divide? (values.getOrZero current - values.getOrZero previous)
        (values.get? previous)).map (· * 100.0)

end Combine

/-- An operation in a data tree: its tag under `op`, and the rest. -/
def Json.operation? : Json → Option (String × Json)
  | .object members =>
      match members.filter (fun member => member.1 == "op") with
      | [(_, .string tag)] => some (tag, .object (members.filter fun member => member.1 != "op"))
      | _ => none
  | .array (.string tag :: items) => some (tag, .array items)
  | _ => none

/-- Two operands of an operation by their names. -/
def Json.pair? (first second : String) (tree : Json) : Option (String × String) := do
  let members ← tree.record? [first, second] .ignored
  let one ← Json.required? members first Json.string?
  let two ← Json.required? members second Json.string?
  some (one, two)

def Combine.ofJson? (tree : Json) : Option Combine := do
  let (tag, rest) ← tree.operation?
  let pair (make : String → String → Combine) (first second : String) : Option Combine :=
    (rest.pair? first second).map fun (one, two) => make one two
  let alone (make : Combine) : Option Combine := (rest.record? [] .ignored).map fun _ => make
  match tag with
  | "sum" => alone sum
  | "product" => alone product
  | "difference" => pair difference "minuend" "subtrahend"
  | "ratio" => pair ratio "numerator" "denominator"
  | "percent" => pair percent "numerator" "denominator"
  | "growth" => pair growth "current" "previous"
  | _ => none

end MetricLayer
