import MetricLayer.Proofs.Context.Interchange
import MetricLayer.Proofs.Context.Steps

/-!
# Ranges without bounds

A range without bounds holds every cell, so a context that is opened on a dimension, by such a range
where it had no filter, admits the same rows. The built-in transforms take no notice of it either,
but for one: year-to-date goes by whether the year has a filter at all. Opened on the year, a
context has its period brought up to its end, and keeps its rows only if the period held the same
cells before.
-/

namespace MetricLayer

namespace Range

theorem holds_unbounded (cell : Value) : unbounded.holds cell = true := rfl

end Range

namespace Context

/-- The context with a range without bounds on the dimension. -/
def opened (context : Context) (dimension : String) : Context :=
  context.withRange dimension .unbounded

variable {context first second : Context} {dimension other : String} {keys : TimeKeys}

theorem get?_opened (context : Context) (dimension other : String) :
    (context.opened dimension).get? other =
      if other = dimension then some (.range .unbounded) else context.get? other :=
  get?_withFilter context dimension other _

theorem admitAlike_opened (h : context.get? dimension = none) (grain : List String) :
    AdmitAlike grain context (context.opened dimension) := by
  intro row
  rw [admits_iff, admits_iff]
  constructor
  · intro hadmits other filter hfilter hgrain
    rw [get?_opened] at hfilter
    split at hfilter
    · obtain rfl := Option.some.inj hfilter
      exact Range.holds_unbounded (row.cell other)
    · exact hadmits other filter hfilter hgrain
  · intro hadmits other filter hfilter hgrain
    refine hadmits other filter ?_ hgrain
    have hne : other ≠ dimension := by
      rintro rfl
      rw [h] at hfilter
      cases hfilter
    rw [get?_opened, if_neg hne, hfilter]

/-- A step that is not taken from a range without bounds, or leads back to it, can be taken before
the context is opened. -/
theorem stepped_opened {next : Filter → Option Filter} (h : context.get? dimension = none)
    (hnext : next (.range .unbounded) = none ∨
      next (.range .unbounded) = some (.range .unbounded)) :
    (context.stepped next other).get? dimension = none ∧
      (context.opened dimension).stepped next other =
        (context.stepped next other).opened dimension := by
  by_cases hother : other = dimension
  · subst hother
    rw [stepped_of_get?_none h]
    refine ⟨h, KeyMap.ext_get? fun name => ?_⟩
    rw [stepped, get?_opened, if_pos rfl, Option.bind_some]
    rcases hnext with hnext | hnext
    · rw [hnext, Option.elim_none]
    · rw [hnext, Option.elim_some, get?_withFilter, get?_opened]
      split <;> rfl
  · rw [stepped, stepped, get?_opened, if_neg hother]
    cases (context.get? other).bind next with
    | none => exact ⟨h, rfl⟩
    | some filter =>
        rw [Option.elim_some, Option.elim_some, get?_withFilter, if_neg (Ne.symm hother)]
        refine ⟨h, KeyMap.ext_get? fun name => ?_⟩
        rw [get?_withFilter, get?_opened, get?_opened, get?_withFilter]
        by_cases hname : name = dimension
        · have hne : name ≠ other := fun heq => hother (heq.symm.trans hname)
          rw [if_pos hname, if_pos hname, if_neg hne]
        · rw [if_neg hname, if_neg hname]

theorem priorPeriod_opened (keys : TimeKeys) (h : context.get? dimension = none) :
    (priorPeriod keys context).get? dimension = none ∧
      priorPeriod keys (context.opened dimension) =
        (priorPeriod keys context).opened dimension := by
  rw [priorPeriod_eq_stepped, priorPeriod_eq_stepped]
  exact stepped_opened h (.inr rfl)

theorem yearToDate_opened (hyear : dimension ≠ keys.year) (h : context.get? dimension = none) :
    (yearToDate keys context).get? dimension = none ∧
      yearToDate keys (context.opened dimension) = (yearToDate keys context).opened dimension := by
  have hconstrains : (context.opened dimension).constrains keys.year =
      context.constrains keys.year := by
    rw [constrains, constrains, get?_opened, if_neg hyear.symm]
  rw [yearToDate_eq_stepped, yearToDate_eq_stepped, hconstrains]
  split
  · exact stepped_opened h (.inl rfl)
  · exact ⟨h, rfl⟩

/-- A context and the opened one were changed alike if they still differ in the open dimension
only. -/
theorem changedAlike_opened_iff (h : context.get? dimension = none) :
    ChangedAlike context (context.opened dimension) first second ↔
      first.get? dimension = none ∧ second = first.opened dimension := by
  have hshared : ∀ other, context.get? other = (context.opened dimension).get? other ↔
      other ≠ dimension := by
    intro other
    rw [get?_opened]
    by_cases hother : other = dimension
    · simp [hother, h]
    · simp [hother]
  constructor
  · intro halike
    have hapart := halike.apart dimension fun heq => (hshared dimension).mp heq rfl
    rw [h, get?_opened, if_pos rfl] at hapart
    refine ⟨hapart.1, KeyMap.ext_get? fun other => ?_⟩
    rw [get?_opened]
    by_cases hother : other = dimension
    · rw [if_pos hother, hother, hapart.2]
    · rw [if_neg hother, halike.shared other ((hshared other).mpr hother)]
  · rintro ⟨hfirst, rfl⟩
    constructor
    · intro other hother
      rw [get?_opened, if_neg ((hshared other).mp hother)]
    · intro other hother
      obtain rfl : other = dimension := by
        by_contra hne
        exact hother ((hshared other).mpr hne)
      rw [hfirst, h, get?_opened, get?_opened, if_pos rfl, if_pos rfl]
      exact ⟨rfl, rfl⟩

/-- Every built-in transform changes a context and the opened one alike, unless the open dimension
is the year that year-to-date asks for. -/
theorem ChangedAlike.builtin_opened {name : String} {change : Transform}
    (hchange : (Transforms.builtin keys).get? name = some change)
    (hopen : dimension ≠ keys.year ∨ name = "prior_period")
    (h : context.get? dimension = none)
    (halike : ChangedAlike context (context.opened dimension) first second) :
    ChangedAlike context (context.opened dimension) (change first) (change second) := by
  obtain ⟨hfirst, rfl⟩ := (changedAlike_opened_iff h).mp halike
  refine (changedAlike_opened_iff h).mpr ?_
  have hprior := priorPeriod_opened keys hfirst
  rcases Transforms.builtin_cases hchange with ⟨hname, rfl⟩ | ⟨-, rfl⟩ | ⟨hname, rfl⟩
  · have hyear : dimension ≠ keys.year := hopen.resolve_right (by simp [hname])
    exact yearToDate_opened hyear hfirst
  · exact hprior
  · have hyear : dimension ≠ keys.year := hopen.resolve_right (by simp [hname])
    dsimp only
    rw [hprior.2]
    exact yearToDate_opened hyear hprior.1

/-- The filter on the period holds the same cells when only its upper end is kept. -/
def PeriodToDate (keys : TimeKeys) (context : Context) : Prop :=
  ∀ filter upper, context.get? keys.period = some filter → filter.upTo? = some upper →
    ∀ cell, upper.holds cell = filter.holds cell

theorem PeriodToDate.opened (h : PeriodToDate keys context) (dimension : String) :
    PeriodToDate keys (context.opened dimension) := by
  intro filter upper hfilter hupper
  rw [get?_opened] at hfilter
  split at hfilter
  · obtain rfl := Option.some.inj hfilter
    cases hupper
  · exact h filter upper hfilter hupper

theorem yearToDate_cases (keys : TimeKeys) (context : Context) :
    yearToDate keys context = context ∨ ∃ filter upper, context.get? keys.period = some filter ∧
      filter.upTo? = some upper ∧ yearToDate keys context = context.withRange keys.period upper := by
  rw [yearToDate]
  split
  · split
    · rename_i upper hupper
      obtain ⟨filter, hfilter, hupper⟩ := Option.bind_eq_some_iff.mp hupper
      exact .inr ⟨filter, upper, hfilter, hupper, rfl⟩
    · exact .inl rfl
  · exact .inl rfl

theorem PeriodToDate.admitAlike (h : PeriodToDate keys context) (grain : List String) :
    AdmitAlike grain context (yearToDate keys context) := by
  intro row
  rcases yearToDate_cases keys context with hsame | ⟨filter, upper, hfilter, hupper, hchanged⟩
  · rw [hsame]
  · have hnull : filter.isNull = false := by
      refine Bool.eq_false_iff.mpr fun hnull => ?_
      rw [upTo?_of_isNull filter hnull] at hupper
      cases hupper
    have hkeeps : ∀ cell, (Filter.range upper).keeps cell = filter.keeps cell := by
      intro cell
      rw [Filter.keeps_range, h filter upper hfilter hupper, Filter.keeps, hnull, Bool.false_or]
    have hget : ∀ other, (yearToDate keys context).get? other =
        if other = keys.period then some (.range upper) else context.get? other := by
      intro other
      rw [hchanged, withRange, get?_withFilter]
    rw [admits_iff, admits_iff]
    constructor
    · intro hadmits other held hheld hgrain
      rw [hget] at hheld
      split at hheld
      · rename_i hother
        obtain rfl := Option.some.inj hheld
        rw [hkeeps]
        exact hadmits other filter (hother ▸ hfilter) hgrain
      · exact hadmits other held hheld hgrain
    · intro hadmits other held hheld hgrain
      by_cases hother : other = keys.period
      · have hperiod := hadmits other (.range upper) (by rw [hget, if_pos hother]) hgrain
        rw [hother, hfilter] at hheld
        obtain rfl := Option.some.inj hheld
        rw [← hkeeps]
        exact hperiod
      · exact hadmits other held (by rw [hget, if_neg hother, hheld]) hgrain

theorem get?_yearToDate_of_unbounded (h : context.get? dimension = some (.range .unbounded)) :
    (yearToDate keys context).get? dimension = some (.range .unbounded) := by
  rcases yearToDate_cases keys context with hsame | ⟨filter, upper, hfilter, hupper, hchanged⟩
  · rw [hsame, h]
  · have hne : dimension ≠ keys.period := by
      rintro rfl
      obtain rfl := Option.some.inj (h.symm.trans hfilter)
      cases hupper
    rw [hchanged, withRange, get?_withFilter, if_neg hne, h]

theorem priorPeriod_of_unbounded (h : context.get? keys.year = some (.range .unbounded)) :
    priorPeriod keys context = context := by
  rw [priorPeriod_eq_stepped, stepped, h]
  refine KeyMap.ext_get? fun other => ?_
  rw [Option.bind_some, show (Filter.range Range.unbounded).previous? = some (.range .unbounded)
    from rfl, Option.elim_some, get?_withFilter]
  split
  · rename_i hother
    rw [hother, h]
  · rfl

theorem yearToDate_of_unconstrained (h : context.constrains keys.year = false) :
    yearToDate keys context = context := by
  rw [yearToDate, if_neg (Bool.eq_false_iff.mp h)]

theorem constrains_of_unbounded (h : context.get? dimension = some (.range .unbounded)) :
    context.constrains dimension = true := by
  rw [constrains, h]
  rfl

theorem yearToDate_of_constrained {filter : Filter} {upper : Range}
    (hyear : context.constrains keys.year = true)
    (hfilter : context.get? keys.period = some filter) (hupper : filter.upTo? = some upper) :
    yearToDate keys context = context.withRange keys.period upper := by
  have hbound : (context.get? keys.period >>= Filter.upTo?) = some upper := by
    rw [hfilter]
    exact hupper
  rw [yearToDate, if_pos hyear, hbound]

end Context

end MetricLayer
