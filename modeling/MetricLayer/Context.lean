import MetricLayer.KeyMap
import MetricLayer.Filter
import MetricLayer.Json.Reader

/-!
# Filter contexts

The filters that a metric is evaluated under, by dimension. A dimension without a filter is not
constrained.

A context has a key, the JSON text of its filters in canonical form: whole numbers are written alike
whichever way they are held. `Context.ofKey?` reads such texts back.
-/

namespace MetricLayer

abbrev Context := KeyMap Filter

namespace Context

def withFilter (context : Context) (dimension : String) (filter : Filter) : Context :=
  context.insert dimension filter

def withRange (context : Context) (dimension : String) (range : Range) : Context :=
  context.withFilter dimension (.range range)

/-- The value that the dimension is asked for, if its filter is an equality. -/
def value? (context : Context) (dimension : String) : Option Value :=
  context.get? dimension >>= Filter.value?

def constrains (context : Context) (dimension : String) : Bool :=
  (context.get? dimension).any fun filter => !filter.isNull

def same (first second : Context) : Bool :=
  first.keys == second.keys && first.values == second.values

def toJson (context : Context) : Json :=
  .object (context.toList.map fun (dimension, filter) => (dimension, filter.toJson))

def ofJson? : Json → Option Context
  | .object members => do
      let filters ← members.mapM fun (dimension, tree) => do
        let filter ← Filter.ofJson? tree
        some (dimension, filter)
      some (KeyMap.ofList filters)
  | _ => none

def canonical (context : Context) : Context := context.map Filter.canonical

def key (context : Context) : String := context.canonical.toJson.compact

def ofKey? (text : String) : Option Context := Json.parse? text >>= ofJson?

end Context

end MetricLayer
