import MetricLayer.Log

/-!
# Command line arguments

Reading the arguments of the program from left to right. Options for the whole program may stand
before and after the name of the command, where the later place wins; a command has options of its
own.

An option takes its value from the same argument or from the next one, which must not look like an
option itself. That value is checked when the next option or the end is met.
-/

namespace MetricLayer

inductive OutputFormat where
  | table
  | json
deriving DecidableEq, Repr

namespace OutputFormat

def name : OutputFormat → String
  | table => "table"
  | json => "json"

def ofName? (text : String) : Option OutputFormat :=
  [table, json].find? fun format => format.name == text

end OutputFormat

inductive Command where
  | eval (metrics filters : List String) (output : OutputFormat)
  | query (factTable : String) (rows metrics filters : List String) (output : OutputFormat)
  | list
  | validate
deriving DecidableEq, Repr

/-- A command with the options for the whole program. Without a verbosity nothing is logged. -/
structure Invocation where
  config : Option String
  model : Option String
  dataset : Option String
  verbosity : Option LogLevel
  command : Command
deriving DecidableEq, Repr

inductive NoCommand where
  | version
  | help
  | misuse
deriving DecidableEq, Repr

inductive ValueOption where
  | config
  | model
  | data
  | logLevel
  | fact
  | rows
  | metric
  | filter
  | output
deriving DecidableEq, Repr

/-- Nothing inside means that nothing is logged. -/
def verbosity? (text : String) : Option (Option LogLevel) :=
  if text = "none" then some none else (LogLevel.ofName? text).map some

namespace ValueOption

def long : ValueOption → String
  | config => "config"
  | model => "model"
  | data => "data"
  | logLevel => "log-level"
  | fact => "fact"
  | rows => "rows"
  | metric => "metric"
  | filter => "filter"
  | output => "output"

def short? : ValueOption → Option Char
  | rows => some 'r'
  | metric => some 'm'
  | filter => some 'f'
  | output => some 'o'
  | _ => none

def isRepeatable : ValueOption → Bool
  | rows | metric | filter => true
  | _ => false

def accepts : ValueOption → String → Bool
  | config, text | model, text | data, text => text != ""
  | logLevel, text => (verbosity? text).isSome
  | output, text => (OutputFormat.ofName? text).isSome
  | _, _ => true

def shared : List ValueOption := [config, model, data, logLevel]

end ValueOption

inductive CommandName where
  | eval
  | query
  | list
  | validate
deriving DecidableEq, Repr

namespace CommandName

def name : CommandName → String
  | eval => "eval"
  | query => "query"
  | list => "list"
  | validate => "validate"

def all : List CommandName := [eval, query, list, validate]

def ofName? (text : String) : Option CommandName := all.find? fun command => command.name == text

def options : CommandName → List ValueOption
  | eval => [.metric, .filter, .output]
  | query => [.fact, .rows, .metric, .filter, .output]
  | list | validate => []

end CommandName

namespace Arguments

/-- Where an argument stands: before the name of the command or after it. -/
inductive Place where
  | program
  | command (name : CommandName)

namespace Place

def options : Place → List ValueOption
  | program => ValueOption.shared
  | command name => ValueOption.shared ++ name.options

def isCommand : Place → String → Bool
  | program, text => text == "help" || (CommandName.ofName? text).isSome
  | command _, _ => false

/-- The version is asked for in front of a command only. -/
def hasVersion : Place → Bool
  | program => true
  | command _ => false

end Place

inductive Look where
  | separator
  | long (name : String) (attached : Option String)
  | short (letter : Char) (attached : Option String)
  | word

/-- The value that is attached to a letter, with or without an equality sign. -/
def attachedValue : List Char → Option String
  | [] => none
  | '=' :: value => some (String.ofList value)
  | value => some (String.ofList value)

def Look.of (argument : String) : Look :=
  match argument.toList with
  | ['-', '-'] => separator
  | '-' :: '-' :: text =>
      let attached := match text.dropWhile (· ≠ '=') with
        | [] => none
        | _ :: value => some (String.ofList value)
      long (String.ofList (text.takeWhile (· ≠ '='))) attached
  | '-' :: letter :: rest => short letter (attachedValue rest)
  | _ => word

/-- The values so far, and the option that was met last if its value is not attached to it: with the
value that follows once it is there. -/
structure Reading where
  values : List (ValueOption × String)
  pending : Option (ValueOption × Option String)

namespace Reading

def empty : Reading := ⟨[], none⟩

def awaitsValue (reading : Reading) : Bool :=
  reading.pending.any fun (_, value) => value.isNone

def put (reading : Reading) (option : ValueOption) (value : String) : Except NoCommand Reading :=
  let taken := !option.isRepeatable && (reading.values.lookup option).isSome
  if taken || !option.accepts value then .error .misuse
  else .ok { reading with values := reading.values ++ [(option, value)] }

def settle (reading : Reading) : Except NoCommand Reading :=
  match reading.pending with
  | none => .ok reading
  | some (_, none) => .error .misuse
  | some (option, some value) => { reading with pending := none }.put option value

def takeOption (reading : Reading) (option : ValueOption) (attached : Option String) :
    Except NoCommand Reading := do
  let settled ← reading.settle
  match attached with
  | some value => settled.put option value
  | none => .ok { settled with pending := some (option, none) }

def takeWord (reading : Reading) (word : String) : Except NoCommand Reading :=
  match reading.pending with
  | some (option, none) => .ok { reading with pending := some (option, some word) }
  | _ => .error .misuse

/-- Help and version are given as soon as what precedes them is in order. -/
def stop (reading : Reading) (reason : NoCommand) : Except NoCommand Reading := do
  let _ ← reading.settle
  .error reason

def takeLong (reading : Reading) (place : Place) (name : String) (attached : Option String) :
    Except NoCommand Reading :=
  match place.options.find? fun option => option.long == name with
  | some option => reading.takeOption option attached
  | none =>
      if attached.isSome then .error .misuse
      else if name = "help" then reading.stop .help
      else if name = "version" && place.hasVersion then reading.stop .version
      else .error .misuse

def takeShort (reading : Reading) (place : Place) (letter : Char) (attached : Option String) :
    Except NoCommand Reading :=
  match place.options.find? fun option => option.short? == some letter with
  | some option => reading.takeOption option attached
  | none =>
      if letter = 'h' then reading.stop .help
      else if letter = 'V' && place.hasVersion then reading.stop .version
      else .error .misuse

end Reading

/-- Reads up to the name of a command, which is given with what follows it, or to the end. Nothing
may follow the separator. -/
def read (place : Place) : Reading → List String →
    Except NoCommand (Reading × Option (String × List String))
  | reading, [] => .ok (reading, none)
  | reading, argument :: rest =>
      if !reading.awaitsValue && place.isCommand argument then
        .ok (reading, some (argument, rest))
      else match Look.of argument with
        | .separator => if rest.isEmpty then .ok (reading, none) else .error .misuse
        | .long name attached => do read place (← reading.takeLong place name attached) rest
        | .short letter attached => do read place (← reading.takeShort place letter attached) rest
        | .word => do read place (← reading.takeWord argument) rest

def single (reading : Reading) (option : ValueOption) : Option String :=
  reading.values.lookup option

def repeated (reading : Reading) (option : ValueOption) : List String :=
  reading.values.filterMap fun (given, value) => if given = option then some value else none

def required {α : Type} : List α → Except NoCommand (List α)
  | [] => .error .misuse
  | values => .ok values

def outputFormat (reading : Reading) : OutputFormat :=
  (single reading .output >>= OutputFormat.ofName?).getD .table

def command (name : CommandName) (reading : Reading) : Except NoCommand Command :=
  match name with
  | .eval => do
      let metrics ← required (repeated reading .metric)
      return .eval metrics (repeated reading .filter) (outputFormat reading)
  | .query => do
      match single reading .fact with
      | none => .error .misuse
      | some factTable =>
          let rows ← required (repeated reading .rows)
          let metrics ← required (repeated reading .metric)
          return .query factTable rows metrics (repeated reading .filter) (outputFormat reading)
  | .list => .ok .list
  | .validate => .ok .validate

/-- Help is there for the program, for each command and for help itself. -/
def helpOn : List String → NoCommand
  | [] => .help
  | [topic] => if Place.program.isCommand topic then .help else .misuse
  | _ => .misuse

def invocation (outer inner : Reading) (command : Command) : Invocation :=
  let value? (option : ValueOption) : Option String := single inner option <|> single outer option
  { config := value? .config
    model := value? .model
    dataset := value? .data
    verbosity := (value? .logLevel >>= verbosity?).getD (some .warn)
    command }

def parse (arguments : List String) : Except NoCommand Invocation := do
  let (outer, found) ← read .program .empty arguments
  match found with
  | none => throw .misuse
  | some (word, rest) =>
      match CommandName.ofName? word with
      | none => throw (helpOn rest)
      | some name =>
          let (inner, _) ← read (.command name) .empty rest
          let inner ← inner.settle
          let command ← command name inner
          let outer ← outer.settle
          return invocation outer inner command

end Arguments

end MetricLayer
