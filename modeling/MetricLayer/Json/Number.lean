import MetricLayer.Json.Basic
import MetricLayer.Decimal.Reading

/-!
# Numbers in JSON texts

A numeral without a fraction or an exponent is an integer when it fits 64 bits; `-0` and every other
numeral is a double. Doubles are read by scaling: the leading digits that fit 64 bits are taken as a
whole number, and the power of ten that is left is multiplied or divided in floating point. A
numeral beyond the range of doubles is refused.
-/

namespace MetricLayer.Json

open Decimal

/-- Appends digits for as long as the number fits 64 bits; the digits left over come back. -/
def absorb (significand : Nat) : List Char → Nat × List Char
  | [] => (significand, [])
  | c :: rest =>
      let next := significand * 10 + digitValue c
      if next < twoTo 64 then absorb next rest else (significand, c :: rest)

def powerOfTen (exponent : Nat) : Float := Float.ofScientific 1 false exponent

/-- Multiplies by a power of ten, in steps of at most `10 ^ 308`. Three steps downwards take every
64-bit number to zero. -/
def scale? : Nat → Float → Int → Option Float
  | 0, _, _ => some 0.0
  | steps + 1, x, exponent =>
      if exponent.natAbs ≤ 308 then
        if 0 ≤ exponent then
          let scaled := x * powerOfTen exponent.natAbs
          if isFinite scaled then some scaled else none
        else some (x / powerOfTen exponent.natAbs)
      else if x == 0.0 then some x
      else if 0 ≤ exponent then none
      else scale? steps (x / powerOfTen 308) (exponent + 308)

/-- The parts of a numeral: its sign, its whole digits, and its fraction and exponent if it has
them. -/
structure Numeral where
  negative : Bool
  whole : List Char
  fraction : Option (List Char)
  exponent : Option (Bool × List Char)
deriving DecidableEq, Repr

def Numeral.float? (numeral : Numeral) : Option Float :=
  let (leading, wholeLeft) := absorb 0 numeral.whole
  let fraction := numeral.fraction.getD []
  let (significand, fractionLeft) := absorb leading fraction
  let shift : Int := (wholeLeft.length : Int) - (fraction.length - fractionLeft.length : Nat)
  let signed (x : Float) : Float := if numeral.negative then -x else x
  match numeral.exponent with
  | none => (scale? 4 (Float.ofNat significand) shift).map signed
  | some (down, digits) =>
      let exponent := digitsValue digits
      if twoTo 31 ≤ exponent then
        if significand ≠ 0 ∧ down = false then none else some (signed 0.0)
      else
        let total := if down then shift - exponent else shift + exponent
        (scale? 4 (Float.ofNat significand) total).map signed

def Numeral.value? (numeral : Numeral) : Option Json :=
  match numeral.fraction, numeral.exponent with
  | none, none =>
      let magnitude : Int := digitsValue numeral.whole
      if numeral.negative then
        if 0 < magnitude ∧ -magnitude ≥ int64Min then some (.int (-magnitude))
        else numeral.float?.map .float
      else if magnitude ≤ uint64Max then some (.int magnitude)
      else numeral.float?.map .float
  | _, _ => numeral.float?.map .float

def Numeral.splitExponent? : List Char → Option (Option (Bool × List Char) × List Char)
  | c :: rest =>
      if c = 'e' ∨ c = 'E' then
        let (negative, unsigned) := splitSign rest
        let digits := unsigned.takeWhile Char.isDigit
        if digits.isEmpty then none
        else some (some (negative, digits), unsigned.dropWhile Char.isDigit)
      else some (none, c :: rest)
  | [] => some (none, [])

def Numeral.splitFraction? : List Char → Option (Option (List Char) × List Char)
  | '.' :: rest =>
      let digits := rest.takeWhile Char.isDigit
      if digits.isEmpty then none else some (some digits, rest.dropWhile Char.isDigit)
  | rest => some (none, rest)

/-- The whole part is a lone zero or starts with another digit. -/
def Numeral.splitWhole? (text : List Char) : Option (List Char × List Char) :=
  let digits := text.takeWhile Char.isDigit
  match digits with
  | [] => none
  | ['0'] => some (digits, text.dropWhile Char.isDigit)
  | '0' :: _ => none
  | _ => some (digits, text.dropWhile Char.isDigit)

def Numeral.split? (text : List Char) : Option (Numeral × List Char) := do
  let (negative, unsigned) := match text with
    | '-' :: rest => (true, rest)
    | _ => (false, text)
  let (whole, rest) ← splitWhole? unsigned
  let (fraction, rest) ← splitFraction? rest
  let (exponent, rest) ← splitExponent? rest
  some (⟨negative, whole, fraction, exponent⟩, rest)

end MetricLayer.Json
