import MetricLayer.Metric.Combine
import MetricLayer.Proofs.Metric.Dependencies

/-!
# What named combinations compute

`Combine.Yields` says what a combination of metrics is by the values of the metrics, without the map
that a derived metric puts them into. A map that was filled name by name, each with its value, holds
the values of the distinct names in the order in which they first occur; so `Combine.apply` computes
what it should if the operands are among the names.
-/

namespace MetricLayer

namespace DependencyValues

variable {value : String → Option Float} {names : List String} {name : String}

theorem get?_ofList (hname : name ∈ names) :
    (ofList (names.map fun name => (name, value name))).get? name = value name := by
  rw [get?, entries_ofList, KeyMap.lookup_map_mk, if_pos (List.mem_eraseDups.mpr hname)]
  rfl

theorem getOrZero_ofList (hname : name ∈ names) :
    (ofList (names.map fun name => (name, value name))).getOrZero name =
      (value name).getD 0.0 := by
  rw [getOrZero, get?_ofList hname]

theorem numbers_ofList (value : String → Option Float) (names : List String) :
    (ofList (names.map fun name => (name, value name))).numbers =
      names.eraseDups.map fun name => (value name).getD 0.0 := by
  rw [numbers, entries_ofList, List.map_map]
  rfl

end DependencyValues

def IsNullOrZero : Option Float → Prop
  | none => True
  | some x => (x == 0.0) = true

namespace Combine

/-- The name is an operand of the combination. -/
def Names (operand : String) : Combine → Prop
  | sum | product => False
  | difference first second | ratio first second | percent first second
  | growth first second => operand = first ∨ operand = second

theorem mem_referenced_iff {combine : Combine} {operand : String} :
    operand ∈ combine.referenced ↔ combine.Names operand := by
  cases combine <;> simp [referenced, Names]

/-- The result is null just when the divisor is null or zero, and else that of the operation. -/
def Divides (divisor : Option Float) (operation : Float → Float) (result : Option Float) : Prop :=
  (result = none ↔ IsNullOrZero divisor) ∧
    ∀ x, divisor = some x → ¬ IsNullOrZero divisor → result = some (operation x)

/-- What the combination is, by the values of the metrics. Sums and products are over the distinct
names that are listed, in the order in which they first occur. -/
def Yields (value : String → Option Float) (listed : List String) (result : Option Float) :
    Combine → Prop
  | sum => result = some
      ((listed.eraseDups.map fun name => (value name).getD 0.0).foldl (· + ·) (-0.0))
  | product => result = some
      ((listed.eraseDups.map fun name => (value name).getD 0.0).foldl (· * ·) 1.0)
  | difference minuend subtrahend =>
      result = some ((value minuend).getD 0.0 - (value subtrahend).getD 0.0)
  | ratio numerator denominator =>
      Divides (value denominator) (fun divisor => (value numerator).getD 0.0 / divisor) result
  | percent numerator denominator =>
      Divides (value denominator) (fun divisor => (value numerator).getD 0.0 / divisor * 100.0) result
  | growth current previous =>
      Divides (value previous)
        (fun divisor => ((value current).getD 0.0 - divisor) / divisor * 100.0) result

variable {value : String → Option Float} {names : List String}

theorem divides_divide? {divisor : Option Float} {numerator : Float}
    {operation after : Float → Float}
    (h : ∀ x, divisor = some x → operation x = after (numerator / x)) :
    Divides divisor operation ((divide? numerator divisor).map after) := by
  cases divisor with
  | none => simp [Divides, IsNullOrZero, divide?]
  | some x =>
      rw [Divides, divide?, IsNullOrZero]
      by_cases hzero : (x == 0.0) = true
      · simp [hzero]
      · simp [hzero, h x rfl]

/-- Over the values of its operands, a combination computes what it is. -/
theorem yields_apply (combine : Combine)
    (hoperands : ∀ operand ∈ combine.referenced, operand ∈ names) :
    combine.Yields value names
      (combine.apply (.ofList (names.map fun name => (name, value name)))) := by
  cases combine with
  | sum => rw [apply, DependencyValues.numbers_ofList, Yields]
  | product => rw [apply, DependencyValues.numbers_ofList, Yields]
  | difference minuend subtrahend =>
      rw [apply, DependencyValues.getOrZero_ofList (hoperands minuend (by simp [referenced])),
        DependencyValues.getOrZero_ofList (hoperands subtrahend (by simp [referenced])), Yields]
  | ratio numerator denominator =>
      rw [apply, DependencyValues.getOrZero_ofList (hoperands numerator (by simp [referenced])),
        DependencyValues.get?_ofList (hoperands denominator (by simp [referenced])), Yields]
      have hratio : Divides (value denominator) (fun x => (value numerator).getD 0.0 / x)
          ((divide? ((value numerator).getD 0.0) (value denominator)).map id) :=
        divides_divide? fun x _ => rfl
      rwa [Option.map_id_apply] at hratio
  | percent numerator denominator =>
      rw [apply, DependencyValues.getOrZero_ofList (hoperands numerator (by simp [referenced])),
        DependencyValues.get?_ofList (hoperands denominator (by simp [referenced])), Yields]
      exact divides_divide? fun x _ => rfl
  | growth current previous =>
      have hprevious : previous ∈ names := hoperands previous (by simp [referenced])
      rw [apply, DependencyValues.getOrZero_ofList (hoperands current (by simp [referenced])),
        DependencyValues.getOrZero_ofList hprevious, DependencyValues.get?_ofList hprevious, Yields]
      refine divides_divide? fun x hx => ?_
      rw [hx, Option.getD_some]

end Combine

end MetricLayer
