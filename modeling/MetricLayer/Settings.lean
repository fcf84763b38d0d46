import MetricLayer.Host
import MetricLayer.Context.Transform
import MetricLayer.Display
import MetricLayer.Json.Basic
import MetricLayer.Toml.Reader

namespace MetricLayer

inductive SettingsError where
  | fileNotFound (path : String)
  | unreadable (reason : Unreadable)
  | invalidToml
  | missingVariable (name : String)
  | emptyTimeKey
  | equalTimeKeys (key : String)
deriving DecidableEq, Repr

def SettingsError.message : SettingsError → String
  | fileNotFound path => "Config file not found: " ++ path
  | unreadable reason => "Failed to read config file: " ++ reason.message
  | invalidToml => "Failed to parse config file: "
  | missingVariable name => "Missing environment variable: " ++ name
  | emptyTimeKey => "Invalid configuration: time.year_key and time.period_key must not be empty"
  | equalTimeKeys key =>
      "Invalid configuration: time.year_key and time.period_key are both '" ++ key ++ "'"

structure Settings where
  model : Option String
  dataset : Option String
  time : TimeKeys
  display : DisplaySettings
deriving DecidableEq, Repr, Inhabited

def TimeKeys.fields : List String := ["year_key", "period_key"]

def TimeKeys.ofJson? (tree : Json) : Option TimeKeys := do
  let members ← tree.record? fields .ignored
  let year ← Json.withDefault? members "year_key" Json.string? standard.year
  let period ← Json.withDefault? members "period_key" Json.string? standard.period
  some ⟨year, period⟩

/-- A number of places. -/
def Json.nat? : Json → Option Nat
  | .int n => if 0 ≤ n ∧ n ≤ uint64Max then some n.toNat else none
  | _ => none

def DisplaySettings.fields : List String := ["currency_symbol", "decimals", "percent_decimals"]

def DisplaySettings.ofJson? (tree : Json) : Option DisplaySettings := do
  let members ← tree.record? fields .ignored
  let symbol ← Json.withDefault? members "currency_symbol" Json.string? standard.currencySymbol
  let decimals ← Json.withDefault? members "decimals" Json.nat? standard.decimals
  let percent ← Json.withDefault? members "percent_decimals" Json.nat? standard.percentDecimals
  some ⟨symbol, decimals, percent⟩

namespace Settings

def standard : Settings := ⟨none, none, .standard, .standard⟩

def fileFields : List String := ["model", "dataset"]

def files? (tree : Json) : Option (Option String × Option String) := do
  let members ← tree.record? fileFields .ignored
  let model ← Json.optional? members "model" Json.string?
  let dataset ← Json.optional? members "dataset" Json.string?
  some (model, dataset)

def ofJson? (tree : Json) : Option Settings := do
  let members ← tree.record? ["data", "time", "format"] .ignored
  let (model, dataset) ← Json.withDefault? members "data" files? (none, none)
  let time ← Json.withDefault? members "time" TimeKeys.ofJson? .standard
  let display ← Json.withDefault? members "format" DisplaySettings.ofJson? .standard
  some { model, dataset, time, display }

def shape : Toml.Shape :=
  .record [("data", .flat fileFields), ("time", .flat TimeKeys.fields),
    ("format", .flat DisplaySettings.fields)]

/-- The two time keys must be there and differ. -/
def validate (settings : Settings) : Except SettingsError Settings :=
  if settings.time.year = "" ∨ settings.time.period = "" then .error .emptyTimeKey
  else if settings.time.year = settings.time.period then .error (.equalTimeKeys settings.time.year)
  else .ok settings

def ofText (text : String) : Except SettingsError Settings :=
  match Toml.parse? text >>= Toml.Tree.toJson? shape >>= ofJson? with
  | some settings => settings.validate
  | none => .error .invalidToml

def expandPath (environment : Environment) (path : Option String) :
    Except SettingsError (Option String) :=
  match path with
  | none => .ok none
  | some path => ((expandVariables environment path).map some).mapError .missingVariable

def modelPath (settings : Settings) (environment : Environment) :
    Except SettingsError (Option String) :=
  expandPath environment settings.model

def datasetPath (settings : Settings) (environment : Environment) :
    Except SettingsError (Option String) :=
  expandPath environment settings.dataset

def variableNames (settings : Settings) : List String :=
  [settings.model, settings.dataset].flatMap fun path =>
    (path.elim [] fun path => Expansion.segments path.toList).filterMap Expansion.Segment.name?

variable {m : Type → Type} [Monad m]

def ofFile (host : Host m) (path : String) : m (Except SettingsError Settings) := do
  match ← host.entry? path with
  | none => return .error (.fileNotFound path)
  | some (.error reason) => return .error (.unreadable reason)
  | some (.ok text) => return ofText text

def userFile? (environment : Environment) : Option String :=
  (Host.configDirectory? environment).map (· ++ "/metrica/config.toml")

/-- The file that a variable names, else the one in the working directory, else the user's own. If
there is none of them the settings are the default ones. -/
def find (host : Host m) : m (Except SettingsError Settings) := do
  let environment ← host.environment ["METRICA_CONFIG", "XDG_CONFIG_HOME", "HOME"]
  match environment "METRICA_CONFIG" with
  | some path => ofFile host path
  | none =>
      if (← host.entry? "metrica.toml").isSome then ofFile host "metrica.toml"
      else match userFile? environment with
        | none => return .ok standard
        | some path =>
            if (← host.entry? path).isSome then ofFile host path else return .ok standard

end Settings

end MetricLayer
