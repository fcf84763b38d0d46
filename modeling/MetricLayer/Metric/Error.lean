namespace MetricLayer

inductive MetricError where
  | unknownMetric (name : String)
  | unknownFactTable (name : String)
  | unknownMeasure (factTable measure : String)
  | unknownTransform (name : String)
  | unsupportedAggregation (tag : String)
  | cyclicDefinition (path : List String)
  | duplicateMetric (name : String)
deriving DecidableEq, Repr

def MetricError.message : MetricError → String
  | unknownMetric name => "Unknown metric: '" ++ name ++ "'"
  | unknownFactTable name => "Unknown fact table: '" ++ name ++ "'"
  | unknownMeasure factTable measure =>
      "Unknown measure '" ++ measure ++ "' on fact table '" ++ factTable ++ "'"
  | unknownTransform name => "Unknown context transform: '" ++ name ++ "'"
  | unsupportedAggregation tag =>
      "Unsupported aggregation: '" ++ tag ++ "'. Expected one of: sum, avg, count"
  | cyclicDefinition path => "Cyclic metric definition: " ++ " -> ".intercalate path
  | duplicateMetric name => "Duplicate metric name: '" ++ name ++ "'"

end MetricLayer
