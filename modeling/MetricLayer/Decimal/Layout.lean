import MetricLayer.Decimal.Shortest

namespace MetricLayer.Decimal

/-- With `0.DDD · 10 ^ d`, a number is written without an exponent when `d` lies within the bounds
that are given. -/
structure Layout where
  tie : Tie
  lowest : Option Int
  highest : Option Int
  wholePoint : Bool
  signedExponent : Bool
deriving DecidableEq, Repr

/-- Never an exponent, and no point in a whole number. -/
def Layout.plain : Layout := ⟨.up, none, none, false, false⟩

/-- Plain from `1e-5` up to below `1e16` and always with a point; otherwise an exponent that always
has a sign. -/
def Layout.json : Layout := ⟨.toEven, some (-4), some 16, true, true⟩

/-- Plain from `1e-4` up to below `1e16` and always with a point. -/
def Layout.log : Layout := ⟨.up, some (-3), some 16, true, false⟩

def Layout.positional (layout : Layout) (position : Int) : Bool :=
  layout.lowest.all (fun low => decide (low ≤ position)) &&
    layout.highest.all (fun high => decide (position ≤ high))

def digitChars (n : Nat) : List Char := Nat.toDigits 10 n

/-- The digits with the point at its place, filled up with zeros. -/
def positionalText (wholePoint : Bool) (digits : List Char) (position : Int) : List Char :=
  let zeros (n : Int) : List Char := List.replicate n.toNat '0'
  if position ≤ 0 then '0' :: '.' :: zeros (-position) ++ digits
  else if digits.length ≤ position then
    digits ++ zeros (position - digits.length) ++ (if wholePoint then ['.', '0'] else [])
  else digits.take position.toNat ++ '.' :: digits.drop position.toNat

def exponentText (signed : Bool) (digits : List Char) (exponent : Int) : List Char :=
  let mantissa := match digits with
    | [] => ['0']
    | [digit] => [digit]
    | digit :: rest => digit :: '.' :: rest
  let sign := if exponent < 0 then ['-'] else if signed then ['+'] else []
  mantissa ++ 'e' :: sign ++ digitChars exponent.natAbs

def Layout.magnitude (layout : Layout) (value : Binary) : List Char :=
  if value.significand = 0 then
    if layout.wholePoint then ['0', '.', '0'] else ['0']
  else
    let shortest := value.shortest layout.tie
    let digits := digitChars shortest.coefficient
    let position := shortest.exponent + digits.length
    if layout.positional position then positionalText layout.wholePoint digits position
    else exponentText layout.signedExponent digits (position - 1)

def Layout.write (layout : Layout) (x : Float) : String :=
  match Binary.ofFloat? x with
  | some value =>
      String.ofList ((if value.negative then ['-'] else []) ++ layout.magnitude value)
  | none => if x.isNaN then "NaN" else if x < 0.0 then "-inf" else "inf"

end MetricLayer.Decimal
