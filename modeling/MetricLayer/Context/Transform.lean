import MetricLayer.Context

/-!
# Time transforms

A transform turns one context into another. Two are built in, and their composition: year-to-date
keeps of a period only its upper bound, and prior period moves the year back by one. Both leave a
context alone that they have nothing to say about.
-/

namespace MetricLayer

/-- The dimensions that the built-in transforms read and change. -/
structure TimeKeys where
  year : String
  period : String
deriving DecidableEq, Repr, Inhabited

def TimeKeys.standard : TimeKeys := ⟨"year", "month"⟩

abbrev Transform := Context → Context

namespace Range

/-- The tighter of the two inclusive upper bounds; `stop` if they cannot be compared. -/
def inclusiveUpper? (range : Range) : Option Value :=
  match range.stop, range.lte with
  | some stop, some lte => if lte.compare? stop = some .lt then some lte else some stop
  | some stop, none => some stop
  | none, lte => lte

def isAtOrBelow (value limit : Value) : Bool := (value.compare? limit).any (· != .gt)

/-- The tightest upper bound as a range of its own. An exclusive bound wins over an inclusive one
only if it is known not to lie above it. -/
def tightestUpper? (range : Range) : Option Range :=
  match range.inclusiveUpper?, range.lt with
  | some inclusive, some exclusive =>
      if isAtOrBelow exclusive inclusive then some (below exclusive) else some (atMost inclusive)
  | some inclusive, none => some (atMost inclusive)
  | none, some exclusive => some (below exclusive)
  | none, none => none

end Range

/-- The period up to its end: a single period or the upper bound of a range of them. -/
def Filter.upTo? : Filter → Option Range
  | .equals value => if value.isNull then none else some (.atMost value)
  | .range bounds => bounds.tightestUpper?

def yearToDate (keys : TimeKeys) (context : Context) : Context :=
  if context.constrains keys.year then
    match context.get? keys.period >>= Filter.upTo? with
    | some upper => context.withRange keys.period upper
    | none => context
  else context

/-- The filter one step back. A range moves only if all of its bounds do. -/
def Filter.previous? : Filter → Option Filter
  | .equals value => (value.offset? (-1)).map .equals
  | .range bounds =>
      let moved := bounds.mapBounds (Value.offset? (-1))
      if moved.boundCount = bounds.boundCount then some (.range moved) else none

def priorPeriod (keys : TimeKeys) (context : Context) : Context :=
  match context.get? keys.year >>= Filter.previous? with
  | some previous => context.withFilter keys.year previous
  | none => context

abbrev Transforms := KeyMap Transform

namespace Transforms

def builtin (keys : TimeKeys) : Transforms :=
  KeyMap.ofList [
    ("ytd", yearToDate keys),
    ("prior_period", priorPeriod keys),
    ("ytd_prior_period", fun context => yearToDate keys (priorPeriod keys context))]

end Transforms

end MetricLayer
