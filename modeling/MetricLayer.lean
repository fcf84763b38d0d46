import MetricLayer.CommandLine
import MetricLayer.CommandLine.Arguments
import MetricLayer.Context
import MetricLayer.Context.Transform
import MetricLayer.Rows
import MetricLayer.Decimal.Binary
import MetricLayer.Decimal.Rounding
import MetricLayer.Decimal.Layout
import MetricLayer.Decimal.Reading
import MetricLayer.Decimal.Shortest
import MetricLayer.Display
import MetricLayer.Evaluation
import MetricLayer.Evaluation.Cache
import MetricLayer.FactTable
import MetricLayer.FactTable.Json
import MetricLayer.Filter
import MetricLayer.Filter.Expression
import MetricLayer.Host
import MetricLayer.Json.Basic
import MetricLayer.Json.Number
import MetricLayer.Json.Reader
import MetricLayer.Json.Text
import MetricLayer.Json.Writer
import MetricLayer.KeyMap
import MetricLayer.Label
import MetricLayer.Log
import MetricLayer.Log.Activity
import MetricLayer.Log.Policy
import MetricLayer.Main
import MetricLayer.Metric
import MetricLayer.Metric.Aggregate
import MetricLayer.Metric.Combine
import MetricLayer.Metric.Error
import MetricLayer.Model
import MetricLayer.Model.Definition
import MetricLayer.Model.Error
import MetricLayer.Model.File
import MetricLayer.Pattern
import MetricLayer.Pattern.CharSet
import MetricLayer.Pattern.Fault
import MetricLayer.Pattern.Reader
import MetricLayer.Pivot
import MetricLayer.Pivot.Table
import MetricLayer.Proofs.Context.Interchange
import MetricLayer.Proofs.Context.Key
import MetricLayer.Proofs.Context.Transforms
import MetricLayer.Proofs.Decimal.Digits
import MetricLayer.Proofs.Decimal.Doubles
import MetricLayer.Proofs.Decimal.JsonText
import MetricLayer.Proofs.Decimal.SharedDoubles
import MetricLayer.Proofs.Decimal.ShortestDigits
import MetricLayer.Proofs.Decimal.Unpacked
import MetricLayer.Proofs.Decimal.WholeNumbers
import MetricLayer.Proofs.Evaluation.Memo
import MetricLayer.Proofs.Evaluation.Recursion
import MetricLayer.Proofs.Evaluation.Runs
import MetricLayer.Proofs.Json.Spelling
import MetricLayer.Proofs.Json.Strings
import MetricLayer.Proofs.KeyMap.Lookup
import MetricLayer.Proofs.Pivot.Cells
import MetricLayer.Proofs.Registry.Depth
import MetricLayer.Proofs.Registry.References
import MetricLayer.Proofs.Registry.Search
import MetricLayer.Proofs.Rows.Narrowing
import MetricLayer.Proofs.Value.Alike
import MetricLayer.Proofs.Value.Order
import MetricLayer.Registry
import MetricLayer.Registry.Graph
import MetricLayer.Settings
import MetricLayer.Settings.Expansion
import MetricLayer.Text.Alphanumeric
import MetricLayer.Text.Blank
import MetricLayer.Text.Visible
import MetricLayer.Text.Terminal
import MetricLayer.Text.Word
import MetricLayer.Toml.Reader
import MetricLayer.Toml.Scalar
import MetricLayer.Toml.Table
import MetricLayer.Toml.Text
import MetricLayer.Toml.Tree
import MetricLayer.Value
import MetricLayer.Proofs.Registry.Components
import MetricLayer.Proofs.Registry.Acceptance
import MetricLayer.Proofs.Pivot.Groups
import MetricLayer.Proofs.Pivot.Selection
import MetricLayer.Proofs.Evaluation.Failures
import MetricLayer.Proofs.Pivot.Failures
import MetricLayer.Proofs.Metric.DistinctCount
import MetricLayer.Proofs.Evaluation.Coverage
import MetricLayer.Proofs.Evaluation.Lockstep
import MetricLayer.Proofs.Context.Agreement
import MetricLayer.Proofs.Evaluation.Relevance
import MetricLayer.Proofs.Evaluation.Accounting
import MetricLayer.Proofs.Json.ReadBack
import MetricLayer.Proofs.Context.ReadBack
import MetricLayer.Proofs.Decimal.WholeDoubles
import MetricLayer.Proofs.Value.EqualTexts
import MetricLayer.Proofs.Pivot.Columns
import MetricLayer.Proofs.Decimal.Quotients
import MetricLayer.Proofs.Decimal.Arithmetic
import MetricLayer.Proofs.Json.Scaling
import MetricLayer.Proofs.Json.DoubleTexts
import MetricLayer.Proofs.Value.ReadBack
import MetricLayer.Proofs.Context.Expressions
import MetricLayer.Proofs.Context.Unbounded
import MetricLayer.Proofs.Evaluation.Unbounded
import MetricLayer.Proofs.Registry.Formats
import MetricLayer.Proofs.Evaluation.Nesting
import MetricLayer.Proofs.Metric.Combinations
import MetricLayer.Proofs.Model.Derived
import MetricLayer.Proofs.Json.Documents
import MetricLayer.Proofs.Context.Decoding
import MetricLayer.Proofs.Json.Magnitudes
import MetricLayer.Proofs.Value.Kinds
import MetricLayer.Proofs.Context.YearToDate
import MetricLayer.Proofs.Registry.Alarms
import MetricLayer.Proofs.Registry.Shortest
import MetricLayer.Proofs.Registry.ClosedPaths
import MetricLayer.Proofs.Registry.Cycles
import MetricLayer.Proofs.Evaluation.RowOrder
import MetricLayer.Proofs.Pivot.RowOrder
import MetricLayer.Proofs.Context.Steps
import MetricLayer.Proofs.Context.PriorPeriod
import MetricLayer.Proofs.Context.Composition
import MetricLayer.Proofs.Text.Trimming
import MetricLayer.Proofs.Filter.Grammar
import MetricLayer.Proofs.Filter.Quotes
import MetricLayer.Proofs.Filter.Operators
import MetricLayer.Proofs.Value.NumberOrder
import MetricLayer.Proofs.Decimal.Places
import MetricLayer.Proofs.Filter.Written
import MetricLayer.Proofs.Display.Edits
import MetricLayer.Proofs.Display.Rounded
import MetricLayer.Proofs.Display.Grouping
import MetricLayer.Proofs.Display.Zeros
import MetricLayer.Proofs.Settings.Cuts
import MetricLayer.Proofs.Rows.Conjunction
import MetricLayer.Proofs.Metric.Dependencies
import MetricLayer.Proofs.Evaluation.HandedValues
