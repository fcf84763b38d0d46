import MetricLayer.Host
import MetricLayer.Metric.Error

namespace MetricLayer

inductive Content where
  | model
  | dataset
deriving DecidableEq, Repr

def Content.name : Content → String
  | model => "model"
  | dataset => "dataset"

def Content.extension : Content → String
  | model => "toml"
  | dataset => "json"

inductive Entity where
  | factTable
  | metric
deriving DecidableEq, Repr

def Entity.name : Entity → String
  | factTable => "fact table"
  | metric => "metric"

inductive LoadError where
  | fileNotFound (path : String)
  | unsupportedExtension (content : Content) (extension : String)
  | unreadable (reason : Unreadable)
  | invalidToml
  | invalidJson
  | invalidDefinition (entity : Entity) (name reason : String)
  | missingField (field : String) (entity : Entity) (name : String)
  | metric (error : MetricError)
deriving DecidableEq, Repr

def LoadError.message : LoadError → String
  | fileNotFound path => "File not found: " ++ path
  | unsupportedExtension content extension =>
      "Unsupported file extension for " ++ content.name ++ ": " ++ extension ++
        ". Supported: ." ++ content.extension
  | unreadable reason => "IO error: " ++ reason.message
  | invalidToml => "Model parse error: "
  | invalidJson => "Dataset parse error: "
  | invalidDefinition entity name reason =>
      "Invalid " ++ entity.name ++ " '" ++ name ++ "': " ++ reason
  | missingField field entity name =>
      "Missing required field '" ++ field ++ "' in " ++ entity.name ++ " '" ++ name ++ "'"
  | metric error => error.message

end MetricLayer
