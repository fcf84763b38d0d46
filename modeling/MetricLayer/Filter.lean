import MetricLayer.Value

namespace MetricLayer

/-- The ways to bound a value. `start` and `stop` are the ends of an inclusive interval; they bound
like `gte` and `lte` and are kept apart from them. -/
inductive Bound where
  | start
  | stop
  | gte
  | lte
  | gt
  | lt
deriving DecidableEq, Repr

namespace Bound

/-- In the order in which they are written. -/
def all : List Bound := [start, stop, gte, lte, gt, lt]

theorem mem_all (bound : Bound) : bound ∈ all := by cases bound <;> decide

def name : Bound → String
  | start => "from"
  | stop => "to"
  | gte => "gte"
  | lte => "lte"
  | gt => "gt"
  | lt => "lt"

def accepts : Bound → Ordering → Bool
  | start, order | gte, order => order != .lt
  | stop, order | lte, order => order != .gt
  | gt, order => order == .gt
  | lt, order => order == .lt

end Bound

structure Range where
  start : Option Value
  stop : Option Value
  gte : Option Value
  lte : Option Value
  gt : Option Value
  lt : Option Value
deriving Inhabited

namespace Range

def unbounded : Range := ⟨none, none, none, none, none, none⟩

def get? (range : Range) : Bound → Option Value
  | .start => range.start
  | .stop => range.stop
  | .gte => range.gte
  | .lte => range.lte
  | .gt => range.gt
  | .lt => range.lt

def ofBounds (bound : Bound → Option Value) : Range :=
  ⟨bound .start, bound .stop, bound .gte, bound .lte, bound .gt, bound .lt⟩

@[simp]
theorem get?_ofBounds (bounds : Bound → Option Value) (bound : Bound) :
    (ofBounds bounds).get? bound = bounds bound := by
  cases bound <;> rfl

def between (first last : Value) : Range :=
  { unbounded with start := some first, stop := some last }

def atLeast (value : Value) : Range := { unbounded with gte := some value }

def atMost (value : Value) : Range := { unbounded with lte := some value }

def above (value : Value) : Range := { unbounded with gt := some value }

def below (value : Value) : Range := { unbounded with lt := some value }

/-- The bounds that are present, in the order in which they are written. -/
def bounds (range : Range) : List (Bound × Value) :=
  Bound.all.filterMap fun bound => (range.get? bound).map (bound, ·)

def boundCount (range : Range) : Nat := range.bounds.length

def isUnbounded (range : Range) : Bool := range.bounds.isEmpty

def holds (range : Range) (value : Value) : Bool :=
  range.bounds.all fun (bound, limit) => (value.compare? limit).any bound.accepts

/-- Maps every bound and drops those that cannot be mapped. -/
def mapBounds (f : Value → Option Value) (range : Range) : Range :=
  ofBounds fun bound => range.get? bound >>= f

def equals (first second : Range) : Bool :=
  Bound.all.all fun bound => first.get? bound == second.get? bound

instance : BEq Range := ⟨equals⟩

end Range

inductive Filter where
  | equals (value : Value)
  | range (range : Range)
deriving Inhabited

namespace Filter

/-- A filter that asks for null asks for nothing. -/
def isNull : Filter → Bool
  | equals value => value.isNull
  | range _ => false

def value? : Filter → Option Value
  | equals value => some value
  | range _ => none

def canonical : Filter → Filter
  | equals value => equals value.canonical
  | range bounds => range (bounds.mapBounds fun value => some value.canonical)

def holds (filter : Filter) (value : Value) : Bool :=
  match filter with
  | equals expected => value == expected
  | range bounds => bounds.holds value

def same : Filter → Filter → Bool
  | equals first, equals second => first == second
  | range first, range second => first == second
  | _, _ => false

instance : BEq Filter := ⟨same⟩

end Filter

/-- A bound of a range object: refused when it is given twice or is no primitive. -/
def Range.boundOfMembers? (members : List (String × Json)) (bound : Bound) :
    Option (Option Value) :=
  match members.filter (fun member => member.1 == bound.name) with
  | [] => some none
  | [(_, tree)] => (Value.ofJson? tree).map fun value => if value.isNull then none else some value
  | _ => none

/-- Members that name no bound are ignored, whatever they hold; a bound that is null is absent. -/
def Range.ofMembers? (members : List (String × Json)) : Option Range := do
  let start ← boundOfMembers? members .start
  let stop ← boundOfMembers? members .stop
  let gte ← boundOfMembers? members .gte
  let lte ← boundOfMembers? members .lte
  let gt ← boundOfMembers? members .gt
  let lt ← boundOfMembers? members .lt
  some ⟨start, stop, gte, lte, gt, lt⟩

def Range.ofJson? : Json → Option Range
  | .object members => Range.ofMembers? members
  | _ => none

def Range.toJson (range : Range) : Json :=
  .object (range.bounds.map fun (bound, value) => (bound.name, value.toJson))

def Filter.ofJson? : Json → Option Filter
  | .object members => (Range.ofMembers? members).map .range
  | tree => (Value.ofJson? tree).map .equals

def Filter.toJson : Filter → Json
  | .equals value => value.toJson
  | .range bounds => bounds.toJson

end MetricLayer
