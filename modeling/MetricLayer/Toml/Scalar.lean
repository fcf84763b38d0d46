import MetricLayer.Toml.Tree
import MetricLayer.Json.Text
import MetricLayer.Decimal.Reading

namespace MetricLayer.Toml

open Decimal

def isHexDigit (c : Char) : Bool := (Json.hexValue? c).isSome

/-- Every underscore has a digit of the class before it and another one after it. The first argument
is the character before the text. -/
def underscoresFit (isDigit : Char → Bool) : Char → List Char → Bool
  | _, [] => true
  | before, '_' :: rest =>
      isDigit before && rest.head?.any isDigit && underscoresFit isDigit '_' rest
  | _, c :: rest => underscoresFit isDigit c rest

/-- The sign of a number and what follows it. Only after a sign may an underscore come first. -/
def unsigned? (isDigit : Char → Bool) (text : List Char) : Option (Bool × List Char) :=
  let (negative, unsigned) := splitSign text
  let before := if unsigned.length < text.length then '0' else '_'
  if underscoresFit isDigit before unsigned then some (negative, unsigned) else none

def withoutUnderscores (text : List Char) : List Char := text.filter (· ≠ '_')

def digits? (text : List Char) : Option (List Char) :=
  if text.isEmpty || !text.all Char.isDigit then none else some text

def baseValue (base : Nat) (digits : List Char) : Nat :=
  digits.foldl (fun value c => value * base + (Json.hexValue? c).getD 0) 0

/-- The value of an integer in another base than ten. Without any digits it has none. -/
def basedInt? (base : Nat) (isDigit : Char → Bool) (text : List Char) : Option (Option Int) :=
  if text.all (fun c => isDigit c || c = '_') && underscoresFit isDigit '_' text then
    let value : Int := baseValue base (withoutUnderscores text)
    some (if text.isEmpty then none else some value)
  else none

/-- The value of a decimal integer. No digits but zero itself may start with a zero. Around an
underscore hexadecimal digits will do, but such an integer has a value only if all its digits are
decimal ones. -/
def decimalInt? (text : List Char) : Option (Option Int) := do
  let (negative, unsigned) ← unsigned? isHexDigit text
  let first := unsigned.takeWhile Char.isDigit
  let rest := unsigned.dropWhile Char.isDigit
  if first.head? = some '0' ∧ unsigned.length ≠ 1 then none
  else if rest.isEmpty && first.isEmpty then none
  else if rest.isEmpty || (rest.head? = some '_' && rest.all fun c => c ≠ '.' && c ≠ 'e' && c ≠ 'E')
  then
    let magnitude := (digits? (withoutUnderscores unsigned)).map fun digits =>
      (digitsValue digits : Int)
    some (if negative then magnitude.map (-·) else magnitude)
  else none

def integer? : List Char → Option (Option Int)
  | '0' :: 'x' :: rest => basedInt? 16 isHexDigit rest
  | '0' :: 'o' :: rest => basedInt? 8 (fun c => decide ('0' ≤ c) && decide (c ≤ '7')) rest
  | '0' :: 'b' :: rest => basedInt? 2 (fun c => c = '0' || c = '1') rest
  | text => decimalInt? text

/-- The part of a text before a character of the class, and the part after it if there is one. -/
def splitBefore (isMark : Char → Bool) (text : List Char) : List Char × Option (List Char) :=
  let before := text.takeWhile fun c => !isMark c
  match text.dropWhile fun c => !isMark c with
  | [] => (before, none)
  | _ :: after => (before, some after)

def fractionDigits? : Option (List Char) → Option (List Char)
  | none => some []
  | some text => digits? text

def exponentValue? : Option (List Char) → Option Int
  | none => some 0
  | some text => readInt? text

/-- The nearest double, unless it is infinite. -/
def finite? (coefficient : Nat) (exponent : Int) : Option Float :=
  let x := toFloat coefficient exponent
  if x.isFinite then some x else none

def specialFloat? : List Char → Option Float
  | ['i', 'n', 'f'] => some infinity
  | ['n', 'a', 'n'] => some nan
  | _ => none

def decimalFloat? (unsigned : List Char) : Option (Option Float) := do
  let (mantissa, exponent) := splitBefore (fun c => c = 'e' || c = 'E')
    (withoutUnderscores unsigned)
  let (whole, fraction) := splitBefore (· = '.') mantissa
  let wholeDigits ← digits? whole
  let fractionDigits ← fractionDigits? fraction
  let exponent ← exponentValue? exponent
  if unsigned.head? = some '0' ∧ wholeDigits.length ≠ 1 then none
  else
    some <| finite? (digitsValue (wholeDigits ++ fractionDigits))
      (exponent - fractionDigits.length)

/-- The value of a floating-point number. One that is too large for a double has none. -/
def float? (text : List Char) : Option (Option Float) := do
  let (negative, unsigned) ← unsigned? Char.isDigit text
  let magnitude ← match specialFloat? unsigned with
    | some x => some (some x)
    | none => decimalFloat? unsigned
  some (if negative then magnitude.map (-·) else magnitude)

def fixedNumber? (count : Nat) (text : List Char) : Option (Nat × List Char) :=
  let digits := text.take count
  if digits.length = count ∧ digits.all Char.isDigit then
    some (digitsValue digits, text.drop count)
  else none

def after? (c : Char) : List Char → Option (List Char)
  | head :: rest => if head = c then some rest else none
  | [] => none

def isLeap (year : Nat) : Bool := (year % 4 = 0 && year % 100 ≠ 0) || year % 400 = 0

def daysIn (year month : Nat) : Nat :=
  if month = 2 then if isLeap year then 29 else 28
  else if month = 4 ∨ month = 6 ∨ month = 9 ∨ month = 11 then 30 else 31

def afterDate? (text : List Char) : Option (List Char) := do
  let (year, rest) ← fixedNumber? 4 text
  let (month, rest) ← fixedNumber? 2 (← after? '-' rest)
  let (day, rest) ← fixedNumber? 2 (← after? '-' rest)
  if 1 ≤ month ∧ month ≤ 12 ∧ 1 ≤ day ∧ day ≤ daysIn year month then some rest else none

def afterFraction? (text : List Char) : Option (List Char) :=
  match text with
  | '.' :: rest =>
      if rest.head?.any Char.isDigit then some (rest.dropWhile Char.isDigit) else none
  | _ => some text

/-- What follows a time of day; the seconds may be left out. -/
def afterTime? (text : List Char) : Option (List Char) := do
  let (hour, rest) ← fixedNumber? 2 text
  let (minute, rest) ← fixedNumber? 2 (← after? ':' rest)
  if hour < 24 ∧ minute < 60 then
    match after? ':' rest with
    | none => some rest
    | some rest =>
        let (second, rest) ← fixedNumber? 2 rest
        if second ≤ 60 then afterFraction? rest else none
  else none

def isOffset (text : List Char) : Bool :=
  match text with
  | [] | ['Z'] | ['z'] => true
  | sign :: rest =>
      (sign = '+' || sign = '-') && (do
        let (hours, rest) ← fixedNumber? 2 rest
        let (minutes, rest) ← fixedNumber? 2 (← after? ':' rest)
        if hours < 24 ∧ minutes < 60 ∧ rest.isEmpty then some () else none).isSome

def isDateTime (text : List Char) : Bool :=
  match afterDate? text with
  | some [] => true
  | some (mark :: rest) =>
      (mark = 'T' || mark = 't' || mark = ' ') && (afterTime? rest).any isOffset
  | none => afterTime? text == some []

def scalar? (token : List Char) : Option Tree :=
  if token = "true".toList then some (.bool true)
  else if token = "false".toList then some (.bool false)
  else match integer? token with
    | some value => some (.integer value)
    | none => match float? token with
      | some value => some (.float value)
      | none => if isDateTime token then some (.moment (String.ofList token)) else none

end MetricLayer.Toml
