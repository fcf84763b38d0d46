import MetricLayer.Proofs.Context.Key

namespace MetricLayer

namespace Context

theorem floatFree_empty : FloatFree .empty := by
  intro dimension filter hfilter
  cases hfilter

theorem FloatFree.withFilter {context : Context} {filter : Filter} (h : context.FloatFree)
    (hfilter : filter.FloatFree) (dimension : String) :
    (context.withFilter dimension filter).FloatFree := by
  intro other found hfound
  rw [Context.withFilter, KeyMap.get?_insert] at hfound
  split at hfound
  · obtain rfl := Option.some.inj hfound
    exact hfilter
  · exact h other found hfound

end Context

namespace Range

theorem floatFree_atMost {value : Value} (h : value.FloatFree) : (atMost value).FloatFree := by
  intro bound limit hlimit
  cases bound with
  | lte =>
      obtain rfl := Option.some.inj hlimit
      exact h
  | _ => cases hlimit

theorem floatFree_below {value : Value} (h : value.FloatFree) : (below value).FloatFree := by
  intro bound limit hlimit
  cases bound with
  | lt =>
      obtain rfl := Option.some.inj hlimit
      exact h
  | _ => cases hlimit

theorem FloatFree.inclusiveUpper? {range : Range} (h : range.FloatFree) {value : Value}
    (hvalue : range.inclusiveUpper? = some value) : value.FloatFree := by
  have hstop : ∀ stop, range.stop = some stop → stop.FloatFree := fun stop => h .stop stop
  have hlte : ∀ lte, range.lte = some lte → lte.FloatFree := fun lte => h .lte lte
  unfold Range.inclusiveUpper? at hvalue
  split at hvalue
  · rename_i stop lte heqstop heqlte
    split at hvalue
    · obtain rfl := Option.some.inj hvalue
      exact hlte _ heqlte
    · obtain rfl := Option.some.inj hvalue
      exact hstop _ heqstop
  · rename_i stop heqstop _
    obtain rfl := Option.some.inj hvalue
    exact hstop _ heqstop
  · exact hlte value hvalue

theorem FloatFree.tightestUpper? {range upper : Range} (h : range.FloatFree)
    (hupper : range.tightestUpper? = some upper) : upper.FloatFree := by
  unfold Range.tightestUpper? at hupper
  split at hupper
  · rename_i inclusive exclusive hinclusive hexclusive
    split at hupper
    · obtain rfl := Option.some.inj hupper
      exact floatFree_below (h .lt exclusive hexclusive)
    · obtain rfl := Option.some.inj hupper
      exact floatFree_atMost (h.inclusiveUpper? hinclusive)
  · rename_i inclusive hinclusive _
    obtain rfl := Option.some.inj hupper
    exact floatFree_atMost (h.inclusiveUpper? hinclusive)
  · rename_i exclusive _ hexclusive
    obtain rfl := Option.some.inj hupper
    exact floatFree_below (h .lt exclusive hexclusive)
  · cases hupper

end Range

theorem Value.FloatFree.offset? {value moved : Value} (h : value.FloatFree) {step : Int64}
    (hmoved : value.offset? step = some moved) : moved.FloatFree := by
  cases value with
  | int n =>
      obtain ⟨whole, _, rfl⟩ := Option.map_eq_some_iff.mp hmoved
      trivial
  | float x => exact h.elim
  | _ => cases hmoved

theorem Filter.FloatFree.upTo? {filter : Filter} (h : filter.FloatFree) {upper : Range}
    (hupper : filter.upTo? = some upper) : upper.FloatFree := by
  cases filter with
  | equals value =>
      change (if value.isNull then none else some (Range.atMost value)) = _ at hupper
      split at hupper
      · cases hupper
      · obtain rfl := Option.some.inj hupper
        exact Range.floatFree_atMost h
  | range bounds => exact Range.FloatFree.tightestUpper? h hupper

theorem Filter.FloatFree.previous? {filter previous : Filter} (h : filter.FloatFree)
    (hprevious : filter.previous? = some previous) : previous.FloatFree := by
  cases filter with
  | equals value =>
      obtain ⟨moved, hmoved, rfl⟩ := Option.map_eq_some_iff.mp hprevious
      exact Value.FloatFree.offset? h hmoved
  | range bounds =>
      unfold Filter.previous? at hprevious
      dsimp only at hprevious
      split at hprevious
      · obtain rfl := Option.some.inj hprevious
        intro bound value hvalue
        rw [Range.get?_mapBounds] at hvalue
        obtain ⟨held, hheld, hmoved⟩ := Option.bind_eq_some_iff.mp hvalue
        exact (h bound held hheld).offset? hmoved
      · cases hprevious

theorem Context.FloatFree.yearToDate {context : Context} (h : context.FloatFree)
    (keys : TimeKeys) : (yearToDate keys context).FloatFree := by
  unfold MetricLayer.yearToDate
  split
  · split
    · rename_i upper hupper
      obtain ⟨filter, hfilter, hbounds⟩ := Option.bind_eq_some_iff.mp hupper
      have hupper : (Filter.range upper).FloatFree := (h _ _ hfilter).upTo? hbounds
      exact h.withFilter hupper keys.period
    · exact h
  · exact h

theorem Context.FloatFree.priorPeriod {context : Context} (h : context.FloatFree)
    (keys : TimeKeys) : (priorPeriod keys context).FloatFree := by
  unfold MetricLayer.priorPeriod
  split
  · rename_i previous hprevious
    obtain ⟨filter, hfilter, hmoved⟩ := Option.bind_eq_some_iff.mp hprevious
    exact h.withFilter ((h _ _ hfilter).previous? hmoved) keys.year
  · exact h

namespace Transforms

/-- No transform puts a floating-point number into a context without any. -/
def KeepFloatFree (transforms : Transforms) : Prop :=
  ∀ name change, transforms.get? name = some change →
    ∀ context : Context, context.FloatFree → (change context).FloatFree

/-- The built-in transforms are the two steps and their composition. -/
theorem builtin_cases {keys : TimeKeys} {name : String} {change : Transform}
    (h : (builtin keys).get? name = some change) :
    (name = "ytd" ∧ change = yearToDate keys) ∨
      (name = "prior_period" ∧ change = priorPeriod keys) ∨
      (name = "ytd_prior_period" ∧
        change = fun context => yearToDate keys (priorPeriod keys context)) := by
  rw [builtin, KeyMap.get?_ofList] at h
  have hmem := KeyMap.mem_of_lookup_eq_some h
  simp only [List.reverse_cons, List.reverse_nil, List.nil_append, List.cons_append,
    List.mem_cons, Prod.mk.injEq, List.not_mem_nil, or_false] at hmem
  rcases hmem with hmem | hmem | hmem
  · exact .inr (.inr hmem)
  · exact .inr (.inl hmem)
  · exact .inl hmem

theorem keepFloatFree_builtin (keys : TimeKeys) : (builtin keys).KeepFloatFree := by
  intro name change hchange context hcontext
  rcases builtin_cases hchange with ⟨-, rfl⟩ | ⟨-, rfl⟩ | ⟨-, rfl⟩
  · exact hcontext.yearToDate keys
  · exact hcontext.priorPeriod keys
  · exact (hcontext.priorPeriod keys).yearToDate keys

end Transforms

end MetricLayer
