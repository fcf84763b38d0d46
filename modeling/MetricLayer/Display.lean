import MetricLayer.Decimal.Rounding
import MetricLayer.Text.Blank

namespace MetricLayer

inductive ValueFormat where
  | currency
  | integer
  | percent
deriving DecidableEq, Repr

structure UnknownFormat where
  tag : String
deriving DecidableEq, Repr

def UnknownFormat.message (error : UnknownFormat) : String :=
  "Unknown value format: '" ++ error.tag ++ "'"

namespace ValueFormat

def name : ValueFormat → String
  | currency => "currency"
  | integer => "integer"
  | percent => "percent"

def all : List ValueFormat := [currency, integer, percent]

def ofName? (text : String) : Option ValueFormat := all.find? (fun format => format.name == text)

def ofTag (text : String) : Except UnknownFormat ValueFormat :=
  match ofName? (Text.tag text) with
  | some format => .ok format
  | none => .error ⟨Text.tag text⟩

def inspect : ValueFormat → String
  | currency => "Currency"
  | integer => "Integer"
  | percent => "Percent"

end ValueFormat

structure DisplaySettings where
  currencySymbol : String
  decimals : Nat
  percentDecimals : Nat
deriving DecidableEq, Repr, Inhabited

def DisplaySettings.standard : DisplaySettings := ⟨"$", 2, 1⟩

namespace Display

/-- A comma before every third character, counted from the end. -/
def groupDigits : List Char → List Char
  | [] => []
  | [c] => [c]
  | c :: next :: rest =>
      if (rest.length + 1) % 3 = 0 then c :: ',' :: groupDigits (next :: rest)
      else c :: groupDigits (next :: rest)

def groupThousands (number : List Char) : List Char :=
  let (sign, unsigned) := match number with
    | '-' :: rest => (['-'], rest)
    | _ => ([], number)
  sign ++ groupDigits (unsigned.takeWhile (· ≠ '.')) ++ unsigned.dropWhile (· ≠ '.')

def dropTrailing (c : Char) (text : List Char) : List Char :=
  (text.reverse.dropWhile (· = c)).reverse

/-- Drops the zeros at the end of a fraction, and the point with the last of them. -/
def trimFraction (number : List Char) : List Char :=
  if number.contains '.' then dropTrailing '.' (dropTrailing '0' number) else number

def isNonzeroDigit (c : Char) : Bool := decide ('1' ≤ c) && decide (c ≤ '9')

/-- A minus in front of a text without a digit above zero is dropped. -/
def dropZeroSign : List Char → List Char
  | '-' :: rest => if rest.any isNonzeroDigit then '-' :: rest else rest
  | text => text

/-- A number below zero; the negative zero is not. -/
def isBelowZero (value : Decimal.Binary) : Bool := value.negative && value.significand != 0

def body (value : Decimal.Binary) (format : Option ValueFormat) (settings : DisplaySettings) :
    List Char :=
  match format with
  | some .currency =>
      (if isBelowZero value then ['-'] else []) ++ settings.currencySymbol.toList ++
        groupThousands ({ value with negative := false }.fixed settings.decimals)
  | some .integer => groupThousands (value.fixed 0)
  | some .percent => value.fixed settings.percentDecimals ++ ['%']
  | none => groupThousands (trimFraction (value.fixed settings.decimals))

/-- The text of a metric value. Null and numbers that are not finite have none. -/
def text? (value : Option Float) (format : Option ValueFormat) (settings : DisplaySettings) :
    Option String := do
  let binary ← Decimal.Binary.ofFloat? (← value)
  some (String.ofList (dropZeroSign (body binary format settings)))

end Display

end MetricLayer
