import MetricLayer.Proofs.Context.Agreement

/-!
# Steps from one filter

A built-in transform takes a step from the filter on one dimension, or leaves the context as it is.
So it touches one dimension, adds and removes none, and two steps on different dimensions can be
taken in either order. Both transforms step from filters that constrain to filters that constrain,
and year-to-date has nothing left to do the second time.
-/

namespace MetricLayer

namespace Range

theorem tightestUpper?_eq_some {range upper : Range} (h : range.tightestUpper? = some upper) :
    ∃ value, upper = atMost value ∨ upper = below value := by
  unfold tightestUpper? at h
  split at h
  · rename_i inclusive exclusive _ _
    split at h
    · exact ⟨exclusive, .inr (Option.some.inj h).symm⟩
    · exact ⟨inclusive, .inl (Option.some.inj h).symm⟩
  · rename_i inclusive _ _
    exact ⟨inclusive, .inl (Option.some.inj h).symm⟩
  · rename_i exclusive _ _
    exact ⟨exclusive, .inr (Option.some.inj h).symm⟩
  · cases h

/-- A tightest upper bound is its own. -/
theorem tightestUpper?_self {range upper : Range} (h : range.tightestUpper? = some upper) :
    upper.tightestUpper? = some upper := by
  obtain ⟨value, rfl | rfl⟩ := tightestUpper?_eq_some h
  · rfl
  · rfl

end Range

theorem Filter.upTo?_self {filter : Filter} {upper : Range} (h : filter.upTo? = some upper) :
    (Filter.range upper).upTo? = some upper := by
  cases filter with
  | equals value =>
      change (if value.isNull then none else some (Range.atMost value)) = _ at h
      split at h
      · cases h
      · obtain rfl := Option.some.inj h
        rfl
  | range bounds => exact Range.tightestUpper?_self h

theorem Value.isNull_of_offset? {value moved : Value} {step : Int64}
    (h : value.offset? step = some moved) : moved.isNull = false := by
  cases value with
  | int n =>
      obtain ⟨whole, -, rfl⟩ := Option.map_eq_some_iff.mp h
      rfl
  | float x =>
      obtain rfl := Option.some.inj h
      rfl
  | _ => cases h

theorem Filter.isNull_of_previous? {filter previous : Filter}
    (h : filter.previous? = some previous) : previous.isNull = false := by
  cases filter with
  | equals value =>
      obtain ⟨moved, hmoved, rfl⟩ := Option.map_eq_some_iff.mp h
      exact Value.isNull_of_offset? hmoved
  | range bounds =>
      unfold Filter.previous? at h
      dsimp only at h
      split at h
      · obtain rfl := Option.some.inj h
        rfl
      · cases h

namespace Context

variable {context : Context} {dimension other : String} {next after : Filter → Option Filter}

theorem get?_withFilter (context : Context) (dimension other : String) (filter : Filter) :
    (context.withFilter dimension filter).get? other =
      if other = dimension then some filter else context.get? other :=
  KeyMap.get?_insert context dimension other filter

theorem stepped_of_eq_none (h : (context.get? dimension).bind next = none) :
    context.stepped next dimension = context := by
  rw [stepped, h, Option.elim_none]

theorem stepped_of_get?_none (h : context.get? dimension = none) :
    context.stepped next dimension = context :=
  stepped_of_eq_none (by rw [h, Option.bind_none])

theorem get?_stepped_of_ne (next : Filter → Option Filter) (context : Context)
    (h : other ≠ dimension) : (context.stepped next dimension).get? other = context.get? other := by
  rw [stepped]
  cases (context.get? dimension).bind next with
  | none => rfl
  | some changed => rw [Option.elim_some, get?_withFilter, if_neg h]

theorem get?_stepped (next : Filter → Option Filter) (dimension : String) (context : Context) :
    (context.stepped next dimension).get? dimension =
      (context.get? dimension).map fun filter => (next filter).getD filter := by
  cases hfilter : context.get? dimension with
  | none => rw [stepped_of_get?_none hfilter, hfilter, Option.map_none]
  | some filter =>
      rw [stepped, hfilter, Option.bind_some, Option.map_some]
      cases next filter with
      | none => exact hfilter
      | some changed => rw [Option.elim_some, get?_withFilter, if_pos rfl, Option.getD_some]

theorem keys_stepped (next : Filter → Option Filter) (dimension : String) (context : Context) :
    (context.stepped next dimension).keys = context.keys := by
  refine KeyMap.keys_eq_of_isSome fun other => ?_
  by_cases hother : other = dimension
  · rw [hother, get?_stepped, Option.isSome_map]
  · rw [get?_stepped_of_ne next context hother]

theorem stepped_comm (hne : dimension ≠ other) (next after : Filter → Option Filter)
    (context : Context) :
    (context.stepped next dimension).stepped after other =
      (context.stepped after other).stepped next dimension := by
  refine KeyMap.ext_get? fun name => ?_
  by_cases hdimension : name = dimension
  · have hname : name ≠ other := fun hname => hne (hdimension.symm.trans hname)
    rw [get?_stepped_of_ne after _ hname, hdimension, get?_stepped, get?_stepped,
      get?_stepped_of_ne after context hne]
  · rw [get?_stepped_of_ne next _ hdimension]
    by_cases hother : name = other
    · rw [hother, get?_stepped, get?_stepped, get?_stepped_of_ne next context hne.symm]
    · rw [get?_stepped_of_ne after _ hother, get?_stepped_of_ne after context hother,
        get?_stepped_of_ne next context hdimension]

/-- A step that leads to a filter which it does not change is taken once. -/
theorem stepped_stepped_self
    (h : ∀ filter changed, next filter = some changed → next changed = some changed)
    (dimension : String) (context : Context) :
    (context.stepped next dimension).stepped next dimension =
      context.stepped next dimension := by
  refine KeyMap.ext_get? fun name => ?_
  by_cases hname : name = dimension
  · rw [hname, get?_stepped, get?_stepped, Option.map_map]
    refine congrFun (congrArg Option.map (funext fun filter => ?_)) _
    cases hchanged : next filter with
    | none => rw [Function.comp_apply, hchanged, Option.getD_none, hchanged, Option.getD_none]
    | some changed =>
        rw [Function.comp_apply, hchanged, Option.getD_some, h filter changed hchanged,
          Option.getD_some]
  · rw [get?_stepped_of_ne next _ hname]

theorem constrains_stepped
    (hnull : ∀ filter : Filter, filter.isNull = true → next filter = none)
    (hchanged : ∀ filter changed, next filter = some changed → changed.isNull = false)
    (dimension other : String) (context : Context) :
    (context.stepped next dimension).constrains other = context.constrains other := by
  rw [constrains, constrains]
  by_cases hother : other = dimension
  · rw [hother, get?_stepped]
    cases context.get? dimension with
    | none => rfl
    | some filter =>
        rw [Option.map_some, Option.any_some, Option.any_some]
        cases hnext : next filter with
        | none => rw [Option.getD_none]
        | some changed =>
            have hfilter : filter.isNull = false := by
              refine Bool.eq_false_iff.mpr fun hfilter => ?_
              rw [hnull filter hfilter] at hnext
              cases hnext
            rw [Option.getD_some, hchanged filter changed hnext, hfilter]
  · rw [get?_stepped_of_ne next context hother]

theorem constrains_priorPeriod (keys : TimeKeys) (context : Context) (dimension : String) :
    (priorPeriod keys context).constrains dimension = context.constrains dimension := by
  rw [priorPeriod_eq_stepped]
  exact constrains_stepped previous?_of_isNull (fun _ _ => Filter.isNull_of_previous?) _ _ _

theorem constrains_yearToDate (keys : TimeKeys) (context : Context) (dimension : String) :
    (yearToDate keys context).constrains dimension = context.constrains dimension := by
  rw [yearToDate_eq_stepped]
  split
  · refine constrains_stepped (fun filter hnull => ?_) (fun filter changed hchanged => ?_) _ _ _
    · rw [upTo?_of_isNull filter hnull, Option.map_none]
    · obtain ⟨upper, -, rfl⟩ := Option.map_eq_some_iff.mp hchanged
      rfl
  · rfl

theorem yearToDate_yearToDate (keys : TimeKeys) (context : Context) :
    yearToDate keys (yearToDate keys context) = yearToDate keys context := by
  rw [yearToDate_eq_stepped keys (yearToDate keys context), constrains_yearToDate]
  cases hyear : context.constrains keys.year with
  | false => rfl
  | true =>
      rw [if_pos rfl, yearToDate_eq_stepped, hyear, if_pos rfl]
      refine stepped_stepped_self (fun filter changed hchanged => ?_) keys.period context
      obtain ⟨upper, hupper, rfl⟩ := Option.map_eq_some_iff.mp hchanged
      rw [Filter.upTo?_self hupper, Option.map_some]

/-- Each of the two reads the key of the other for no more than whether it is constrained. -/
theorem yearToDate_priorPeriod {keys : TimeKeys} (hne : keys.year ≠ keys.period)
    (context : Context) :
    yearToDate keys (priorPeriod keys context) = priorPeriod keys (yearToDate keys context) := by
  rw [yearToDate_eq_stepped, constrains_priorPeriod, yearToDate_eq_stepped]
  split
  · rw [priorPeriod_eq_stepped, priorPeriod_eq_stepped]
    exact stepped_comm hne _ _ context
  · rfl

end Context

end MetricLayer
