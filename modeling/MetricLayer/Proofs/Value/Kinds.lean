import MetricLayer.KeyMap
import MetricLayer.Value
import Mathlib.Data.Int.Order.Basic

namespace MetricLayer

inductive ValueKind where
  | bool
  | int
  | string
deriving DecidableEq, Repr

namespace Value

def OfKind : Value → ValueKind → Prop
  | bool _, .bool | int _, .int | string _, .string => True
  | _, _ => False

/-- The first value comes before the second in the order of their kind. -/
def Below : Value → Value → Prop
  | bool first, bool second => first < second
  | int first, int second => first < second
  | string first, string second => first < second
  | _, _ => False

def AtMost : Value → Value → Prop
  | bool first, bool second => first ≤ second
  | int first, int second => first ≤ second
  | string first, string second => first ≤ second
  | _, _ => False

theorem not_below_self : ∀ value : Value, ¬ value.Below value
  | bool _ => Bool.lt_irrefl _
  | int _ => Int64.lt_irrefl
  | string _ => String.lt_irrefl _
  | null | float _ => id

theorem Below.trans : ∀ {first second third : Value}, first.Below second → second.Below third →
    first.Below third
  | bool _, bool _, bool _, h, hsecond => Bool.lt_trans h hsecond
  | int _, int _, int _, h, hsecond => Int64.lt_trans h hsecond
  | string _, string _, string _, h, hsecond => String.lt_trans h hsecond

theorem Below.asymm {first second : Value} (h : first.Below second) : ¬ second.Below first :=
  fun hback => not_below_self first (h.trans hback)

theorem Below.atMost : ∀ {first second : Value}, first.Below second → first.AtMost second
  | bool _, bool _, h => Bool.le_of_lt h
  | int _, int _, h => Int64.le_of_lt h
  | string _, string _, h => Std.le_of_lt h

theorem AtMost.trans : ∀ {first second third : Value}, first.AtMost second →
    second.AtMost third → first.AtMost third
  | bool _, bool _, bool _, h, hsecond => Bool.le_trans h hsecond
  | int _, int _, int _, h, hsecond => Int64.le_trans h hsecond
  | string _, string _, string _, h, hsecond => String.le_trans h hsecond

theorem AtMost.trans_below : ∀ {first second third : Value}, first.AtMost second →
    second.Below third → first.Below third
  | bool _, bool _, bool _, h, hsecond => Bool.lt_of_le_of_lt h hsecond
  | int _, int _, int _, h, hsecond => Int64.lt_of_le_of_lt h hsecond
  | string _, string _, string _, h, hsecond => Std.lt_of_le_of_lt h hsecond

/-- Values of one kind are compared by its order. -/
theorem compare?_cases : ∀ {kind : ValueKind} {first second : Value}, first.OfKind kind →
    second.OfKind kind →
    (first.compare? second = some .lt ∧ first.Below second) ∨
      (first.compare? second = some .eq ∧ first = second) ∨
        (first.compare? second = some .gt ∧ second.Below first)
  | .bool, bool first, bool second, _, _ => by
      rw [Below, Below, bool.injEq, compare?]
      cases first <;> cases second <;> decide
  | .int, int first, int second, _, _ => by
      rw [Below, Below, Int64.lt_iff_toInt_lt, Int64.lt_iff_toInt_lt, int.injEq, ← Int64.toInt_inj,
        compare?]
      rcases lt_trichotomy first.toInt second.toInt with h | h | h
      · exact .inl ⟨congrArg some (compare_lt_iff_lt.mpr h), h⟩
      · exact .inr (.inl ⟨congrArg some (compare_eq_iff_eq.mpr h), h⟩)
      · exact .inr (.inr ⟨congrArg some (compare_gt_iff_gt.mpr h), h⟩)
  | .string, string first, string second, _, _ => by
      rw [Below, Below, string.injEq, compare?, compareOfLessAndEq]
      by_cases hlt : first < second
      · rw [if_pos hlt]
        exact .inl ⟨rfl, hlt⟩
      · by_cases heq : first = second
        · rw [if_neg hlt, if_pos heq]
          exact .inr (.inl ⟨rfl, heq⟩)
        · rw [if_neg hlt, if_neg heq]
          exact .inr (.inr ⟨rfl, KeyMap.name_lt_of_not heq hlt⟩)

theorem atMost_iff : ∀ {kind : ValueKind} {first second : Value}, first.OfKind kind →
    second.OfKind kind → (first.AtMost second ↔ ¬ second.Below first)
  | .bool, bool first, bool second, _, _ => by
      rw [AtMost, Below]
      cases first <;> cases second <;> decide
  | .int, int _, int _, _, _ => Int64.not_lt.symm
  | .string, string _, string _, _, _ => String.not_lt.symm

end Value

end MetricLayer
