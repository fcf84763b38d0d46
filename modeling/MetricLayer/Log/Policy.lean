import MetricLayer.Host
import MetricLayer.Log
import MetricLayer.Pattern.Reader

/-!
# Log policies

Which entries of a log are shown. A policy is a list of directives, each with the targets that it is
for and the most detailed level that it lets through, and possibly a pattern that must occur in the
text of an entry. It is written as `target=level,target=level/pattern`; a level alone is for all
targets, and a target alone lets everything through.
-/

namespace MetricLayer

/-- A directive without a target is for every entry. -/
structure LogDirective where
  target : Option String
  limit : Option LogLevel
deriving DecidableEq, Repr

namespace LogDirective

def start (directive : LogDirective) : List Char := (directive.target.getD "").toList

def isFor (directive : LogDirective) (target : String) : Bool :=
  directive.start.isPrefixOf target.toList

/-- A directive takes the place of an earlier one with the same target. -/
def insert (directive : LogDirective) (directives : List LogDirective) : List LogDirective :=
  if directives.any fun held => held.target = directive.target then
    directives.map fun held => if held.target = directive.target then directive else held
  else directives ++ [directive]

end LogDirective

structure LogPolicy where
  directives : List LogDirective
  pattern : Option Pattern

namespace LogPolicy

/-- Everything up to a level, whatever its target. -/
def upTo (level : LogLevel) : LogPolicy := ⟨[⟨none, some level⟩], none⟩

/-- The last one of the directives with the longest target that the entry's target starts with. -/
def directive? (policy : LogPolicy) (target : String) : Option LogDirective :=
  (policy.directives.filter (·.isFor target)).foldl
    (fun best directive => match best with
      | some held =>
          if held.start.length ≤ directive.start.length then some directive else some held
      | none => some directive)
    none

def limit (policy : LogPolicy) (target : String) : Nat :=
  match policy.directive? target with
  | some directive => directive.limit.elim 0 LogLevel.detail
  | none => 0

def admits (policy : LogPolicy) (entry : LogEntry) : Bool :=
  decide (entry.level.detail ≤ policy.limit entry.target) &&
    policy.pattern.all fun pattern => pattern.occursIn entry.text

/-- A level in any case; nothing inside means that nothing is let through. -/
def limit? (text : String) : Option (Option LogLevel) :=
  let lower := String.ofList (text.toList.map Char.toLower)
  if lower = "off" then some none else (LogLevel.ofName? lower).map some

def readDirective (text : String) : Except String LogDirective :=
  match text.splitOn "=" with
  | [part] =>
      match limit? part with
      | some limit => .ok ⟨none, limit⟩
      | none => .ok ⟨some part, some .trace⟩
  | [target, level] =>
      let level := Text.trim level
      if level = "" then .ok ⟨some target, some .trace⟩
      else match limit? level with
        | some limit => .ok ⟨some target, limit⟩
        | none => .error level
  | _ => .error text

def warning (problem : String) : String := "warning: invalid " ++ problem ++ ", ignoring it"

def wrongDirective (part : String) : String := warning ("logging spec '" ++ part ++ "'")

def tooManyPatterns (policy : String) : String :=
  warning ("logging spec '" ++ policy ++ "' (too many '/'s)")

def wrongPattern (report : String) : String := warning ("regex filter - " ++ report)

/-- Without directives only errors are shown. -/
def ofDirectives (directives : List LogDirective) (pattern : Option Pattern) : LogPolicy :=
  match directives with
  | [] => ⟨[⟨none, some .error⟩], pattern⟩
  | _ => ⟨directives.foldl (fun sofar directive => directive.insert sofar) [], pattern⟩

def readDirectives (text : String) : List (Except String LogDirective) :=
  (((text.splitOn ",").map Text.trim).filter (· ≠ "")).map readDirective

def errors {ε α : Type} (results : List (Except ε α)) : List ε :=
  results.filterMap fun result => match result with
    | .error error => some error
    | .ok _ => none

def read (policy : String) : LogPolicy × List String :=
  match policy.splitOn "/" with
  | _ :: _ :: _ :: _ => (ofDirectives [] none, [tooManyPatterns policy])
  | directives :: patterns =>
      let parts := readDirectives directives
      let patterns := patterns.map Pattern.read
      (ofDirectives (parts.filterMap Except.toOption) (patterns.filterMap Except.toOption).head?,
        (errors parts).map wrongDirective ++ (errors patterns).map wrongPattern)
  | [] => (ofDirectives [] none, [])

/-- The style of a log: what is asked for, else what the environment says about colors in general.
Where nobody looks at a terminal there are no colors by default. -/
def style (environment : Environment) : LogStyle :=
  let isSet (name : String) : Bool := (environment name).any (· ≠ "")
  match environment "RUST_LOG_STYLE" with
  | some "always" => .colored
  | some "never" => .plain
  | _ => if !isSet "NO_COLOR" && isSet "CLICOLOR_FORCE" then .colored else .plain

def styleVariables : List String := ["RUST_LOG_STYLE", "NO_COLOR", "CLICOLOR_FORCE"]

end LogPolicy

end MetricLayer
