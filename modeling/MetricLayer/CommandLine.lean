import MetricLayer.CommandLine.Arguments
import MetricLayer.Filter.Expression
import MetricLayer.Log.Activity
import MetricLayer.Log.Policy
import MetricLayer.Model.File
import MetricLayer.Pivot.Table
import MetricLayer.Settings
import MetricLayer.Model

/-!
# The command line program

`run` carries out a list of arguments on a host: it loads the settings, the model and, unless the
model is only listed, the dataset, and then does what the command asks for. The first thing that
goes wrong ends the run.
-/

namespace MetricLayer

def commaList (texts : List String) : String := ", ".intercalate texts

namespace Listing

def factTable (table : FactTable) : String :=
  "  - " ++ table.name ++ " (grain: " ++ commaList table.grain ++ "; measures: " ++
    commaList table.measures.keys ++ ")"

/-- What a metric is made from. -/
def detail : MetricKind → String
  | .fact fact => fact.factTable ++ "." ++ fact.measure
  | .expression expression => expression.factTable
  | .derived derived => commaList derived.dependsOn
  | .transform transform => transform.transform ++ " of " ++ transform.base

def metric (metric : Metric) : String :=
  "  - " ++ metric.name ++ " (" ++ detail metric.kind ++ ")" ++
    metric.description.elim "" (": " ++ ·)

/-- The names of the kinds of metrics with the titles of their blocks. -/
def kinds : List (String × String) :=
  [("fact", "Fact metrics:"), ("expression", "Expression metrics:"),
    ("derived", "Derived metrics:"), ("transform", "Transform metrics:")]

def block (title : String) (items : List String) : List String :=
  if items.isEmpty then [] else title :: items ++ [""]

def metricBlock (registry : Registry) (kind title : String) : List String :=
  block title ((registry.metrics.values.filter fun metric => metric.kind.name == kind).map metric)

/-- The fact tables, the metrics of each kind and the transforms, by name. What there is none of is
left out. -/
def lines (registry : Registry) : List String :=
  block "Fact tables:" (registry.factTables.values.map factTable) ++
    kinds.flatMap (fun (kind, title) => metricBlock registry kind title) ++
    ["Transforms: " ++ commaList registry.transforms.keys]

end Listing

inductive ExitStatus where
  | success
  | failure
  | misuse
deriving DecidableEq, Repr

def ExitStatus.code : ExitStatus → Nat
  | success => 0
  | failure => 1
  | misuse => 2

/-- What a run leaves behind: the status and the texts on the two outputs. -/
structure Outcome where
  status : ExitStatus
  output : String
  messages : String
deriving DecidableEq, Repr

def textOfLines (lines : List String) : String := String.join (lines.map (· ++ "\n"))

/-- Work that logs what it does and may end with messages. -/
abbrev Work (m : Type → Type) (α : Type) := ExceptT (List String) (StateT (List LogEntry) m) α

namespace CommandLine

variable {m : Type → Type} [Monad m]

def log (entries : List LogEntry) : Work m Unit := modify (· ++ entries)

def fail {α : Type} (message : String) : Work m α := throw [message]

/-- Goes on with a result; an error ends the work with a message. -/
def orFail {ε α : Type} (message : ε → String) : Except ε α → Work m α
  | .ok result => pure result
  | .error error => fail (message error)

def loadSettings (host : Host m) (config : Option String) : Work m Settings := do
  let result ← match config with
    | some path => (Settings.ofFile host path : m _)
    | none => (Settings.find host : m _)
  orFail (fun error => "Error loading settings: " ++ error.message) result

def optionFor : Content → ValueOption
  | .model => .model
  | .dataset => .data

def notGiven (content : Content) : String :=
  "No " ++ content.name ++ " file given: pass --" ++ (optionFor content).long ++
    " or set [data] " ++ content.name ++ " in the settings"

/-- The path that was given, else the one in the settings. -/
def inputPath (content : Content) (given : Option String)
    (configured : Except SettingsError (Option String)) : Except String String :=
  match given, configured with
  | some path, _ => .ok path
  | none, .ok (some path) => .ok path
  | none, .ok none => .error (notGiven content)
  | none, .error error =>
      .error ("Error resolving " ++ content.name ++ " path: " ++ error.message)

def loadMessage (content : Content) (path : String) (error : LoadError) : String :=
  "Error loading " ++ content.name ++ " '" ++ path ++ "': " ++ error.message

def loadModel (host : Host m) (invocation : Invocation) (settings : Settings)
    (environment : Environment) : Work m Model := do
  let path ← orFail id
    (inputPath .model invocation.model (settings.modelPath environment))
  let result ← (Model.ofFile host path settings.time : m _)
  let model ← orFail (loadMessage .model path) result
  log [.registryBuilt model.registry, .modelLoaded model]
  return model

def loadDataset (host : Host m) (invocation : Invocation) (settings : Settings)
    (environment : Environment) : Work m Database := do
  let path ← orFail id
    (inputPath .dataset invocation.dataset (settings.datasetPath environment))
  let result ← (Database.ofFile host path : m _)
  let database ← orFail (loadMessage .dataset path) result
  log [.datasetLoaded database]
  return database

def readFilters (filters : List String) : Work m Context :=
  orFail ExpressionError.message (Expression.parseAll filters)

def valuesJson (values : KeyMap (Option Float)) : Json :=
  .object (values.toList.map fun (name, value) => (name, value.elim .null .float))

/-- A metric with the text of its value. The width is that of the longest name in bytes. -/
def valueLine (engine : Engine) (values : KeyMap (Option Float)) (width : Nat) (name : String) :
    String :=
  let display := Display.text? (values.get? name).join (engine.registry.displayFormat? name)
    engine.display
  "  " ++ padRight width name ++ "  " ++ display.getD "null"

def valueLines (engine : Engine) (metrics : List String) (context : Context)
    (values : KeyMap (Option Float)) : List String :=
  let width := (metrics.map String.utf8ByteSize).foldl max 0
  ("Context: " ++ context.key) :: metrics.map (valueLine engine values width)

def evaluate (engine : Engine) (metrics filters : List String) (output : OutputFormat) :
    Work m (List String) := do
  let context ← readFilters filters
  let (entries, result) := engine.loggedMetrics metrics context
  log entries
  let values ← orFail (fun error => "Evaluation error: " ++ error.message) result
  return match output with
    | .json => [(valuesJson values).compact]
    | .table => valueLines engine metrics context values

def pivotLines (rows : List PivotRow) : List String :=
  match TextTable.ofRows? rows with
  | some table => table.lines
  | none => ["No rows."]

/-- A query gets the labels of the model for the dimensions that it asks for. -/
def pivotQuery (model : Model) (factTable : String) (rows metrics : List String)
    (filters : Context) : PivotQuery :=
  { factTable, rows, filters, metrics
    labels := model.labels.filter fun lookup => rows.contains lookup.dimension }

def query (engine : Engine) (model : Model) (factTable : String)
    (rows metrics filters : List String) (output : OutputFormat) : Work m (List String) := do
  let context ← readFilters filters
  let (entries, result) := engine.loggedQuery (pivotQuery model factTable rows metrics context)
  log entries
  let answer ← orFail (fun error => "Query error: " ++ error.message) result
  return match output with
    | .json => [(Json.array (answer.map PivotRow.toJson)).pretty]
    | .table => pivotLines answer

def labelProblem? (database : Database) (lookup : LabelLookup) : Option String :=
  if database.contains lookup.table then none
  else some ("Label lookup '" ++ lookup.shownAs ++ "' reads table '" ++ lookup.table ++
    "', which is not in the dataset")

/-- Every reference of the model that leads nowhere in the dataset. -/
def problems (model : Model) (database : Database) : List String :=
  (model.registry.danglingReferences (some database)).map MetricError.message ++
    model.labels.filterMap (labelProblem? database)

def validate (model : Model) (database : Database) : Work m (List String) :=
  match problems model database with
  | [] => pure ["OK: " ++ commaList [
      toString model.registry.metrics.size ++ " metrics",
      toString model.registry.factTables.size ++ " fact tables",
      toString database.size ++ " tables loaded"]]
  | found => throw ("Validation errors:" :: found.map ("  " ++ ·))

def execute (host : Host m) (invocation : Invocation) : Work m (List String) := do
  let settings ← loadSettings host invocation.config
  let environment ← (host.environment settings.variableNames : m _)
  let model ← loadModel host invocation settings environment
  match invocation.command with
  | .list => return Listing.lines model.registry
  | .eval metrics filters output =>
      let database ← loadDataset host invocation settings environment
      evaluate ⟨model.registry, database, settings.display⟩ metrics filters output
  | .query factTable rows metrics filters output =>
      let database ← loadDataset host invocation settings environment
      query ⟨model.registry, database, settings.display⟩ model factTable rows metrics filters output
  | .validate =>
      let database ← loadDataset host invocation settings environment
      validate model database

/-- The policy of a run: a variable wins over the level that is asked for, if anything is to be
logged. -/
def logPolicy (host : Host m) (verbosity : Option LogLevel) : m (LogPolicy × List String) := do
  match verbosity with
  | none => return (⟨[], none⟩, [])
  | some level =>
      match ← host.getVariable "RUST_LOG" with
      | some policy => return LogPolicy.read policy
      | none => return (.upTo level, [])

/-- Targets are shown only when details are asked for. -/
def showsTargets (verbosity : Option LogLevel) : Bool :=
  verbosity.any fun level => decide (LogLevel.debug.detail ≤ level.detail)

def runInvocation (host : Host m) (invocation : Invocation) : m Outcome := do
  let (policy, warnings) ← logPolicy host invocation.verbosity
  let style := LogPolicy.style (← host.environment LogPolicy.styleVariables)
  let (result, entries) ← ((execute host invocation).run.run [] : m _)
  let shown := (entries.filter policy.admits).map
    (·.shown style (showsTargets invocation.verbosity))
  let log := textOfLines warnings ++ String.join shown
  match result with
  | .ok output => return ⟨.success, textOfLines output, log⟩
  | .error messages => return ⟨.failure, "", log ++ textOfLines messages⟩

def usage : String := "Usage: metrica [OPTIONS] <eval|query|list|validate> [ARGUMENTS]\n"

def run (host : Host m) (arguments : List String) : m Outcome :=
  match Arguments.parse arguments with
  | .ok invocation => runInvocation host invocation
  | .error .version => pure ⟨.success, "metrica 0.1.0\n", ""⟩
  | .error .help => pure ⟨.success, usage, ""⟩
  | .error .misuse => pure ⟨.misuse, "", usage⟩

end CommandLine

end MetricLayer
