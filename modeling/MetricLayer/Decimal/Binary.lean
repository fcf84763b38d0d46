/-!
# Exact values of floating-point numbers

A finite double is `± significand · 2 ^ exponent` with a significand below `2 ^ 53`. Everything that
prints or classifies a number starts from this form, in exact integer arithmetic.
-/

namespace MetricLayer.Decimal

def twoTo (exponent : Nat) : Nat := Nat.pow 2 exponent

def tenTo (exponent : Nat) : Nat := Nat.pow 10 exponent

theorem twoTo_pos (exponent : Nat) : 0 < twoTo exponent := Nat.pow_pos (by decide)

theorem tenTo_pos (exponent : Nat) : 0 < tenTo exponent := Nat.pow_pos (by decide)

structure Binary where
  negative : Bool
  significand : Nat
  exponent : Int
deriving DecidableEq, Repr

/-- The exact value of a finite number; nothing for an infinity or a NaN. -/
def Binary.ofFloat? (x : Float) : Option Binary :=
  let bits := x.toBits.toNat
  let negative := bits / twoTo 63 == 1
  let biased : Nat := bits / twoTo 52 % twoTo 11
  let fraction : Nat := bits % twoTo 52
  if biased = 2047 then none
  else if biased = 0 then some ⟨negative, fraction, -1074⟩
  else some ⟨negative, fraction + twoTo 52, (biased : Int) - 1075⟩

def isFinite (x : Float) : Bool := (Binary.ofFloat? x).isSome

/-- The magnitude as a fraction of natural numbers. -/
def Binary.numerator (value : Binary) : Nat := value.significand * twoTo value.exponent.toNat

def Binary.denominator (value : Binary) : Nat := twoTo (-value.exponent).toNat

def Binary.toInt? (value : Binary) : Option Int :=
  if value.numerator % value.denominator = 0 then
    let magnitude : Int := (value.numerator / value.denominator : Nat)
    some (if value.negative then -magnitude else magnitude)
  else none

theorem Binary.denominator_pos (value : Binary) : 0 < value.denominator :=
  twoTo_pos _

def nan : Float := 0.0 / 0.0

def infinity : Float := 1.0 / 0.0

end MetricLayer.Decimal
