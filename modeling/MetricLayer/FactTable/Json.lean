import MetricLayer.FactTable
import MetricLayer.Json.Basic

namespace MetricLayer

/-- A tag by itself, or as the only member of an object that holds nothing. -/
def Json.tag? : Json → Option String
  | .string tag => some tag
  | .object [(tag, .null)] => some tag
  | _ => none

def Measure.ofJson? (tree : Json) : Option Measure := do
  let members ← tree.record? ["column", "default_agg", "format"] .ignored
  let column ← Json.required? members "column" Json.string?
  let aggregation ← Json.required? members "default_agg" fun tag =>
    tag.tag? >>= Aggregation.ofName?
  let format ← Json.optional? members "format" fun tag => tag.tag? >>= ValueFormat.ofName?
  some ⟨column, aggregation, format⟩

def FactTable.ofJson? (tree : Json) : Option FactTable := do
  let members ← tree.record? ["name", "grain", "measures"] .ignored
  let name ← Json.required? members "name" Json.string?
  let grain ← Json.required? members "grain" Json.strings?
  let measures ← Json.required? members "measures" (Json.entries? Measure.ofJson?)
  some ⟨name, grain, KeyMap.ofList measures⟩

end MetricLayer
