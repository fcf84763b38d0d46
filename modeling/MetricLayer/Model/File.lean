import MetricLayer.Model
import MetricLayer.Host
import MetricLayer.Toml.Reader

namespace MetricLayer

def FactTableDefinition.shape : Toml.Shape :=
  .record [("grain", .whole), ("measures", .entries (.flat MeasureDefinition.fields))]

/-- Only within aggregates and combinations are integers narrow. -/
def MetricDefinition.shape : Toml.Shape :=
  .record (fields.map fun name =>
    (name, if name = "aggregate" ∨ name = "combine" then .narrow else .whole))

def ModelDefinition.shape : Toml.Shape :=
  .record [("fact_tables", .entries FactTableDefinition.shape),
    ("metrics", .entries MetricDefinition.shape), ("labels", .list (.flat LabelLookup.fields))]

def Model.ofText (text : String) (keys : TimeKeys) : Except LoadError Model :=
  match Toml.parse? text >>= Toml.Tree.toJson? ModelDefinition.shape
      >>= ModelDefinition.ofJson? with
  | some definition => definition.model keys
  | none => .error .invalidToml

def Database.ofText (text : String) : Except LoadError Database :=
  match Database.ofText? text with
  | some database => .ok database
  | none => .error .invalidJson

variable {m : Type → Type} [Monad m]

def lowerAscii (text : String) : String := String.ofList (text.toList.map Char.toLower)

def Content.read (content : Content) (host : Host m) (path : String) :
    m (Except LoadError String) := do
  match ← host.entry? path with
  | none => return .error (.fileNotFound path)
  | some entry =>
      let extension := Host.extension path
      if lowerAscii extension ≠ content.extension then
        return .error (.unsupportedExtension content extension)
      else return entry.mapError .unreadable

def Model.ofFile (host : Host m) (path : String) (keys : TimeKeys) :
    m (Except LoadError Model) := do
  return (← Content.model.read host path) >>= (Model.ofText · keys)

def Database.ofFile (host : Host m) (path : String) : m (Except LoadError Database) := do
  return (← Content.dataset.read host path) >>= Database.ofText

end MetricLayer
