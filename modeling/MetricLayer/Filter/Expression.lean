import MetricLayer.Context
import MetricLayer.Value

namespace MetricLayer

inductive ExpressionError where
  | malformed (expression : String)
  | missingValue (expression : String)
deriving DecidableEq, Repr

def ExpressionError.message : ExpressionError → String
  | malformed expression =>
      "Invalid filter expression '" ++ expression ++
        "': expected KEY=VALUE, KEY=FROM..TO or KEY>=VALUE"
  | missingValue expression => "Filter expression '" ++ expression ++ "' has no value"

namespace Expression

inductive Operator where
  | atLeast
  | atMost
  | equal
  | above
  | below
deriving DecidableEq, Repr

def isKeyStart (c : Char) : Bool := c.isAlpha || c = '_'

def isKeyChar (c : Char) : Bool := c.isAlphanum || c = '_' || c = '.'

/-- The longest operator at the start of the text. -/
def Operator.split? : List Char → Option (Operator × List Char)
  | '>' :: '=' :: rest => some (atLeast, rest)
  | '<' :: '=' :: rest => some (atMost, rest)
  | '=' :: rest => some (equal, rest)
  | '>' :: rest => some (above, rest)
  | '<' :: rest => some (below, rest)
  | _ => none

/-- The key, the operator and the text of the value, without the blanks around them. The text of the
value may be empty and must not hold a line feed. -/
def split? (text : List Char) : Option (List Char × Operator × List Char) := do
  let text := Text.dropBlank text
  let key := text.takeWhile isKeyChar
  if key.head?.any isKeyStart then
    let (operator, rest) ← Operator.split? (Text.dropBlank (text.dropWhile isKeyChar))
    let raw := Text.trimChars rest
    if raw.contains '\n' then none else some (key, operator, raw)
  else none

def unquote? : List Char → Option (List Char)
  | first :: rest =>
      if Value.isQuote first ∧ rest.getLast? = some first then some rest.dropLast else none
  | [] => none

def readValue (token : List Char) : Value :=
  match unquote? token with
  | some content => .string (String.ofList content)
  | none => .ofChars (Text.trimChars token)

/-- The filter of an equality: two values with `..` between them are an interval. -/
def readEqual? (raw : List Char) : Option Filter :=
  match Text.cutAt ['.', '.'] raw with
  | none => some (.equals (readValue raw))
  | some (before, after) =>
      let first := Text.trimChars before
      let last := Text.trimChars after
      if first.isEmpty || last.isEmpty then none
      else some (.range (.between (readValue first) (readValue last)))

def Operator.filter? (operator : Operator) (raw : List Char) : Option Filter :=
  if raw.isEmpty then none
  else match operator with
    | equal => readEqual? raw
    | atLeast => some (.range (.atLeast (readValue raw)))
    | atMost => some (.range (.atMost (readValue raw)))
    | above => some (.range (.above (readValue raw)))
    | below => some (.range (.below (readValue raw)))

def parse (expression : String) : Except ExpressionError (String × Filter) :=
  match split? expression.toList with
  | none => .error (.malformed expression)
  | some (key, operator, raw) =>
      match operator.filter? raw with
      | none => .error (.missingValue expression)
      | some filter => .ok (String.ofList key, filter)

/-- The context of several expressions. The first one that does not parse is the error; of two with
one key the later one counts. -/
def parseAll (expressions : List String) : Except ExpressionError Context := do
  let filters ← expressions.mapM parse
  return KeyMap.ofList filters

end Expression

end MetricLayer
