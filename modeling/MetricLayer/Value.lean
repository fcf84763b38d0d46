import MetricLayer.Decimal.Reading
import MetricLayer.Json.Writer
import MetricLayer.Text.Blank

/-!
# Values

The primitive values that the cells of a table hold and that filters compare with. Equality keeps
the kinds apart, with one exception: whole numbers and floating-point numbers are both numbers and
compare as such, a mixed pair after rounding the whole number to the nearest double.
-/

namespace MetricLayer

inductive Value where
  | null
  | bool (value : Bool)
  | int (value : Int64)
  | float (value : Float)
  | string (value : String)
deriving Inhabited

namespace Value

def isNull : Value → Bool
  | null => true
  | _ => false

def number? : Value → Option Float
  | int value => some (Float.ofInt value.toInt)
  | float value => some value
  | _ => none

def text? : Value → Option String
  | string value => some value
  | _ => none

def numberOrZero (value : Value) : Float := value.number?.getD 0.0

/-- The order of two doubles; a NaN has none. -/
def compareFloats (x y : Float) : Option Ordering :=
  if x < y then some .lt else if x == y then some .eq else if y < x then some .gt else none

def compareNumbers (first second : Value) : Option Ordering :=
  match first.number?, second.number? with
  | some x, some y => compareFloats x y
  | _, _ => none

/-- The order of two values of one kind. There is none across kinds, of nulls, and of a NaN. -/
def compare? : Value → Value → Option Ordering
  | int first, int second => some (compare first.toInt second.toInt)
  | bool first, bool second => some (compare first.toNat second.toNat)
  | string first, string second => some (compareOfLessAndEq first second)
  | first, second => compareNumbers first second

def equalNumbers (first second : Value) : Bool :=
  match first.number?, second.number? with
  | some x, some y => x == y
  | _, _ => false

def equals : Value → Value → Bool
  | null, null => true
  | bool first, bool second => first == second
  | string first, string second => first == second
  | int first, int second => first == second
  | first, second => equalNumbers first second

instance : BEq Value := ⟨equals⟩

/-- The whole number, if 64 bits hold it. -/
def int64? (n : Int) : Option Int64 :=
  if -9223372036854775808 ≤ n ∧ n ≤ 9223372036854775807 then some (Int64.ofInt n) else none

/-- Moves a number by a whole step. A whole number stays whole and must not leave its range. -/
def offset? (step : Int64) : Value → Option Value
  | int value => (int64? (value.toInt + step.toInt)).map int
  | float value => some (float (value + Float.ofInt step.toInt))
  | _ => none

def wholeFloat? (x : Float) : Option Int64 := do
  let binary ← Decimal.Binary.ofFloat? x
  int64? (← binary.toInt?)

/-- A floating-point number that is whole and fits 64 bits becomes a whole number. -/
def canonical : Value → Value
  | float x => match wholeFloat? x with
      | some whole => int whole
      | none => float x
  | value => value

def text : Value → String
  | null => "null"
  | bool value => if value then "true" else "false"
  | int value => toString value.toInt
  | float value => Decimal.Layout.plain.write value
  | string value => value

instance : ToString Value := ⟨text⟩

/-- Whole numbers beyond the signed 64-bit range become floating-point numbers. -/
def ofInt (n : Int) : Value :=
  match int64? n with
  | some whole => int whole
  | none => float (Float.ofInt n)

def ofJson? : Json → Option Value
  | .null => some null
  | .bool value => some (bool value)
  | .int value => some (ofInt value)
  | .float value => some (float value)
  | .string value => some (string value)
  | .array _ => none
  | .object _ => none

def toJson : Value → Json
  | null => .null
  | bool value => .bool value
  | int value => .int value.toInt
  | float value => .float value
  | string value => .string value

def jsonText (value : Value) : String := value.toJson.compact

def isQuote (c : Char) : Bool := c = '"' || c = '\''

def trimQuotes (text : List Char) : List Char :=
  Text.dropEndWhile isQuote (text.dropWhile isQuote)

def readInt64? (text : List Char) : Option Int64 := Decimal.readInt? text >>= int64?

/-- Words for infinities and NaN are not numbers here, and neither is a number out of range. -/
def readFinite? (text : List Char) : Option Float :=
  (Decimal.readFloat? text).filter Decimal.isFinite

/-- A token is tried as null, whole number, floating-point number and truth value; it is a string if
it is none of them. Quotes at either end of such a string are dropped. -/
def ofChars (token : List Char) : Value :=
  if token.map Char.toLower = "null".toList then null
  else match readInt64? token with
    | some whole => int whole
    | none => match readFinite? token with
      | some x => float x
      | none =>
          if token = "true".toList then bool true
          else if token = "false".toList then bool false
          else string (String.ofList (trimQuotes token))

def ofToken (token : String) : Value := ofChars (Text.trimChars token.toList)

end Value

end MetricLayer
