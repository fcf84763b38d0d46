import MetricLayer.Proofs.Context.Transforms
import MetricLayer.Proofs.Rows.Narrowing
import Mathlib.Data.Set.Operations

/-!
# Contexts that agree on some dimensions

A filter that asks for null constrains no more than a missing one, so contexts agree on a dimension
if they have the same constraint there. Row sets are narrowed to the same rows by contexts that
agree on the grain, and the built-in transforms change contexts alike that agree on the time keys:
where a context has no constraint, they change nothing.
-/

namespace MetricLayer

namespace Context

/-- The filter on a dimension, if it constrains anything. -/
def constraint? (context : Context) (dimension : String) : Option Filter :=
  (context.get? dimension).filter fun filter => !filter.isNull

/-- The contexts have the same constraints on these dimensions. -/
def AgreesOn (dimensions : Set String) (first second : Context) : Prop :=
  ∀ dimension ∈ dimensions, first.constraint? dimension = second.constraint? dimension

variable {context first second start other : Context} {dimension : String} {filter : Filter}

theorem constraint?_eq_some_iff :
    context.constraint? dimension = some filter ↔
      context.get? dimension = some filter ∧ filter.isNull = false := by
  rw [constraint?, Option.filter_eq_some_iff, Bool.not_eq_true']

theorem constraint?_congr (h : first.get? dimension = second.get? dimension) :
    first.constraint? dimension = second.constraint? dimension := by
  rw [constraint?, constraint?, h]

theorem admits_of_agreesOn {grain : List String} {row : Row}
    (h : AgreesOn {dimension | dimension ∈ grain} first second) (hadmits : first.Admits grain row) :
    second.Admits grain row := by
  intro dimension filter hfilter hnull hgrain
  have hconstraint := constraint?_eq_some_iff.mpr ⟨hfilter, hnull⟩
  rw [← h dimension hgrain] at hconstraint
  obtain ⟨hfound, _⟩ := constraint?_eq_some_iff.mp hconstraint
  exact hadmits dimension filter hfound hnull hgrain

theorem AgreesOn.symm {dimensions : Set String} (h : AgreesOn dimensions first second) :
    AgreesOn dimensions second first :=
  fun dimension hdimension => (h dimension hdimension).symm

theorem AgreesOn.admitAlike {grain : List String}
    (h : AgreesOn {dimension | dimension ∈ grain} first second) : AdmitAlike grain first second :=
  fun _ => ⟨admits_of_agreesOn h, admits_of_agreesOn h.symm⟩

/-- Two contexts have been changed alike: on a dimension on which they held the same filter they
still do, and on any other one they hold what they held. -/
structure ChangedAlike (start other first second : Context) : Prop where
  shared : ∀ dimension, start.get? dimension = other.get? dimension →
    first.get? dimension = second.get? dimension
  apart : ∀ dimension, start.get? dimension ≠ other.get? dimension →
    first.get? dimension = start.get? dimension ∧ second.get? dimension = other.get? dimension

namespace ChangedAlike

theorem refl (start other : Context) : ChangedAlike start other start other where
  shared := fun _ h => h
  apart := fun _ _ => ⟨rfl, rfl⟩

theorem symm (h : ChangedAlike start other first second) :
    ChangedAlike other start second first where
  shared := fun dimension hshared => (h.shared dimension hshared.symm).symm
  apart := fun dimension hapart => (h.apart dimension hapart.symm).symm

theorem constraint?_eq (h : ChangedAlike start other first second)
    (hstart : start.constraint? dimension = other.constraint? dimension) :
    first.constraint? dimension = second.constraint? dimension := by
  by_cases hshared : start.get? dimension = other.get? dimension
  · exact constraint?_congr (h.shared dimension hshared)
  · obtain ⟨hfirst, hsecond⟩ := h.apart dimension hshared
    rw [constraint?_congr hfirst, hstart, constraint?_congr hsecond]

theorem agreesOn (h : ChangedAlike start other first second) {dimensions : Set String}
    (hstart : AgreesOn dimensions start other) : AgreesOn dimensions first second :=
  fun dimension hdimension => h.constraint?_eq (hstart dimension hdimension)

/-- A constraint on which contexts agree is the filter of both. -/
theorem shared_of_constraint? (h : ChangedAlike start other first second)
    (hstart : start.constraint? dimension = other.constraint? dimension)
    (hfilter : first.constraint? dimension = some filter) :
    start.get? dimension = other.get? dimension := by
  by_contra hapart
  obtain ⟨hfirst, hsecond⟩ := h.apart dimension hapart
  have hother := hfilter
  rw [h.constraint?_eq hstart] at hother
  obtain ⟨hfound, _⟩ := constraint?_eq_some_iff.mp hfilter
  obtain ⟨hfound', _⟩ := constraint?_eq_some_iff.mp hother
  exact hapart (by rw [← hfirst, ← hsecond, hfound, hfound'])

theorem withFilter (h : ChangedAlike start other first second)
    (hshared : start.get? dimension = other.get? dimension) (filter : Filter) :
    ChangedAlike start other (first.withFilter dimension filter)
      (second.withFilter dimension filter) where
  shared := by
    intro name hname
    rw [Context.withFilter, Context.withFilter, KeyMap.get?_insert, KeyMap.get?_insert,
      h.shared name hname]
  apart := by
    intro name hname
    have hne : name ≠ dimension := by
      rintro rfl
      exact hname hshared
    rw [Context.withFilter, Context.withFilter, KeyMap.get?_insert, KeyMap.get?_insert,
      if_neg hne, if_neg hne]
    exact h.apart name hname

/-- Changes that give one of the contexts a key it had before do so to the other one. -/
theorem key_eq {first' second' : Context} (h : ChangedAlike start other first second)
    (h' : ChangedAlike start other first' second') (hkey : first.key = first'.key) :
    second.key = second'.key := by
  refine key_eq_of_get?_spelling fun dimension => ?_
  by_cases hshared : start.get? dimension = other.get? dimension
  · rw [← h.shared dimension hshared, ← h'.shared dimension hshared]
    exact get?_spelling_of_key_eq hkey dimension
  · rw [(h.apart dimension hshared).2, (h'.apart dimension hshared).2]

theorem key_eq_iff {first' second' : Context} (h : ChangedAlike start other first second)
    (h' : ChangedAlike start other first' second') :
    first.key = first'.key ↔ second.key = second'.key :=
  ⟨h.key_eq h', h.symm.key_eq h'.symm⟩

end ChangedAlike

theorem constraint?_bind {α : Type} {next : Filter → Option α}
    (hnull : ∀ filter : Filter, filter.isNull = true → next filter = none) :
    (context.constraint? dimension).bind next = (context.get? dimension).bind next := by
  rw [constraint?]
  cases context.get? dimension with
  | none => rfl
  | some filter =>
      rw [Option.filter_some, Option.bind_some]
      cases hfilter : filter.isNull with
      | true =>
          rw [hnull filter hfilter, Bool.not_true, if_neg Bool.false_ne_true, Option.bind_none]
      | false => rw [Bool.not_false, if_pos rfl, Option.bind_some]

theorem constrains_eq_isSome_constraint? :
    context.constrains dimension = (context.constraint? dimension).isSome := by
  rw [constrains, constraint?]
  cases context.get? dimension with
  | none => rfl
  | some filter => rw [Option.any_some, Option.isSome_filter, Option.any_some]

theorem previous?_of_isNull (filter : Filter) (h : filter.isNull = true) :
    filter.previous? = none := by
  cases filter with
  | equals value =>
      cases value with
      | null => rfl
      | _ => cases h
  | range bounds => cases h

theorem upTo?_of_isNull (filter : Filter) (h : filter.isNull = true) : filter.upTo? = none := by
  cases filter with
  | equals value => exact if_pos h
  | range bounds => cases h

/-- The context after a step from the filter on one dimension, if it takes the step. -/
def stepped (next : Filter → Option Filter) (dimension : String) (context : Context) : Context :=
  ((context.get? dimension).bind next).elim context (context.withFilter dimension)

theorem priorPeriod_eq_stepped (keys : TimeKeys) (context : Context) :
    priorPeriod keys context = stepped Filter.previous? keys.year context := by
  rw [priorPeriod, stepped]
  split
  · rename_i previous hprevious
    rw [show (context.get? keys.year).bind Filter.previous? = some previous from hprevious]
    rfl
  · rename_i hprevious
    rw [show (context.get? keys.year).bind Filter.previous? = none from hprevious]
    rfl

theorem yearToDate_eq_stepped (keys : TimeKeys) (context : Context) :
    yearToDate keys context =
      if context.constrains keys.year then
        stepped (fun filter => filter.upTo?.map .range) keys.period context
      else context := by
  rw [yearToDate, stepped]
  split
  · cases context.get? keys.period with
    | none => rfl
    | some filter =>
        have hupper : (some filter >>= Filter.upTo?) = filter.upTo? := rfl
        rw [hupper, Option.bind_some]
        cases filter.upTo? <;> rfl
  · rfl

namespace ChangedAlike

theorem stepped {next : Filter → Option Filter}
    (hnull : ∀ filter : Filter, filter.isNull = true → next filter = none)
    (h : ChangedAlike start other first second)
    (hagree : start.constraint? dimension = other.constraint? dimension) :
    ChangedAlike start other (first.stepped next dimension) (second.stepped next dimension) := by
  rw [Context.stepped, Context.stepped, ← constraint?_bind hnull, ← constraint?_bind hnull,
    ← h.constraint?_eq hagree]
  cases hstep : (first.constraint? dimension).bind next with
  | none => exact h
  | some changed =>
      obtain ⟨filter, hfilter, _⟩ := Option.bind_eq_some_iff.mp hstep
      exact h.withFilter (h.shared_of_constraint? hagree hfilter) changed

theorem priorPeriod {keys : TimeKeys} (h : ChangedAlike start other first second)
    (hyear : start.constraint? keys.year = other.constraint? keys.year) :
    ChangedAlike start other (priorPeriod keys first) (priorPeriod keys second) := by
  rw [priorPeriod_eq_stepped, priorPeriod_eq_stepped]
  exact h.stepped previous?_of_isNull hyear

theorem yearToDate {keys : TimeKeys} (h : ChangedAlike start other first second)
    (hyear : start.constraint? keys.year = other.constraint? keys.year)
    (hperiod : start.constraint? keys.period = other.constraint? keys.period) :
    ChangedAlike start other (yearToDate keys first) (yearToDate keys second) := by
  rw [yearToDate_eq_stepped, yearToDate_eq_stepped, constrains_eq_isSome_constraint?,
    constrains_eq_isSome_constraint?, ← h.constraint?_eq hyear]
  split
  · refine h.stepped (fun filter hfilter => ?_) hperiod
    rw [upTo?_of_isNull filter hfilter, Option.map_none]
  · exact h

/-- Contexts that agree on the time keys are changed alike by the built-in transforms. -/
theorem builtin {keys : TimeKeys} {name : String} {change : Transform}
    (hchange : (Transforms.builtin keys).get? name = some change)
    (h : ChangedAlike start other first second)
    (hagree : AgreesOn {keys.year, keys.period} start other) :
    ChangedAlike start other (change first) (change second) := by
  have hyear : start.constraint? keys.year = other.constraint? keys.year :=
    hagree keys.year (.inl rfl)
  have hperiod : start.constraint? keys.period = other.constraint? keys.period :=
    hagree keys.period (.inr rfl)
  rcases Transforms.builtin_cases hchange with ⟨-, rfl⟩ | ⟨-, rfl⟩ | ⟨-, rfl⟩
  · exact h.yearToDate hyear hperiod
  · exact h.priorPeriod hyear
  · exact (h.priorPeriod hyear).yearToDate hyear hperiod

end ChangedAlike

end Context

end MetricLayer
