import MetricLayer.Text.Terminal

namespace MetricLayer

inductive LogLevel where
  | error
  | warn
  | info
  | debug
  | trace
deriving DecidableEq, Repr

namespace LogLevel

def name : LogLevel → String
  | error => "error"
  | warn => "warn"
  | info => "info"
  | debug => "debug"
  | trace => "trace"

def all : List LogLevel := [error, warn, info, debug, trace]

def ofName? (text : String) : Option LogLevel := all.find? fun level => level.name == text

/-- How much detail a level admits. -/
def detail : LogLevel → Nat
  | error => 1
  | warn => 2
  | info => 3
  | debug => 4
  | trace => 5

def title (level : LogLevel) : String := String.ofList (level.name.toList.map Char.toUpper)

end LogLevel

/-- Whether entries are shown in colors, or as a terminal shows texts without any. -/
inductive LogStyle where
  | plain
  | colored
deriving DecidableEq, Repr

namespace LogStyle

def paint (style : LogStyle) (codes : List String) (text : String) : String :=
  match style with
  | plain => text
  | colored => String.join (codes.map fun code => "\x1b[" ++ code ++ "m") ++ text ++ "\x1b[0m"

/-- Without colors nothing is left that a terminal takes for a command. -/
def finish (style : LogStyle) (text : String) : String :=
  match style with
  | plain => Text.plain text
  | colored => text

end LogStyle

/-- Red and bold, yellow, green, blue and cyan. -/
def LogLevel.colors : LogLevel → List String
  | error => ["1", "31"]
  | warn => ["33"]
  | info => ["32"]
  | debug => ["34"]
  | trace => ["36"]

structure LogEntry where
  level : LogLevel
  target : String
  text : String
deriving DecidableEq, Repr

namespace LogEntry

/-- Lines after the first are indented. -/
def indented (text : String) : String :=
  String.ofList (text.toList.flatMap fun c => if c = '\n' then "\n    ".toList else [c])

def bracket (style : LogStyle) (text : String) : String := style.paint ["90"] text

def shown (entry : LogEntry) (style : LogStyle) (showTarget : Bool) : String :=
  let title := entry.level.title
  let padding := String.ofList (List.replicate (5 - title.length) ' ')
  style.finish (bracket style "[" ++ style.paint entry.level.colors (title ++ padding) ++
    (if showTarget then " " ++ entry.target else "") ++ bracket style "]" ++ " " ++
    indented entry.text ++ "\n")

end LogEntry

end MetricLayer
