import MetricLayer.Proofs.Context.Unbounded
import MetricLayer.Proofs.Evaluation.Relevance

/-!
# Metrics under a range without bounds

Opening a context on a dimension changes no metric, except that a year without bounds counts as a
year for year-to-date. A metric that leads to no such transform takes the opened context like the
other one, step by step. A metric that does has the same value if the period held the same cells up
to its end before: then all contexts on the way select the same rows, whatever the cache makes of
their keys. If the period did not, the number of rows up to its end tells the two contexts apart.
-/

namespace MetricLayer

open Context Evaluation Registry Relation

/-- The metric leads to a transform that brings the period up to its end. -/
def Registry.LeadsToDate (registry : Registry) (name : String) : Prop :=
  ∃ reached metric transform, ReflTransGen (RefersTo registry.metrics) name reached ∧
    registry.metrics.get? reached = some metric ∧ metric.kind = .transform transform ∧
      (transform.transform = "ytd" ∨ transform.transform = "ytd_prior_period")

theorem Registry.leadsAlike_opened {registry : Registry} {keys : TimeKeys} {name dimension : String}
    {context : Context} (htransforms : registry.transforms = .builtin keys)
    (hopen : dimension ≠ keys.year ∨ ¬ registry.LeadsToDate name)
    (h : context.get? dimension = none) :
    registry.LeadsAlike context (context.opened dimension) name := by
  intro reached metric hreached hmetric
  constructor
  · intro first second halike
    obtain ⟨hfirst, rfl⟩ := (changedAlike_opened_iff h).mp halike
    exact admitAlike_opened hfirst _
  · intro transform change hkind hchange first second halike
    rw [htransforms] at hchange
    refine halike.builtin_opened hchange ?_ h
    refine hopen.imp_right fun hleads => ?_
    rcases Transforms.builtin_cases hchange with ⟨hname, -⟩ | ⟨hname, -⟩ | ⟨hname, -⟩
    · exact absurd ⟨reached, metric, transform, hreached, hmetric, hkind, .inl hname⟩ hleads
    · exact hname
    · exact absurd ⟨reached, metric, transform, hreached, hmetric, hkind, .inr hname⟩ hleads

namespace Engine

variable {engine : Engine} {keys : TimeKeys} {name : String} {context first second : Context}
  {contexts : Set Context}

/-- The contexts select the same rows of every table, and no transform leads out of them. -/
structure Uniform (engine : Engine) (contexts : Set Context) : Prop where
  admits : ∀ first ∈ contexts, ∀ second ∈ contexts, ∀ grain, AdmitAlike grain first second
  closed : ∀ name change, engine.registry.transforms.get? name = some change →
    ∀ context ∈ contexts, change context ∈ contexts

theorem Uniform.valueWithin_eq (h : engine.Uniform contexts) (hnamed : engine.Named) (depth : Nat)
    (hfirst : first ∈ contexts) (hsecond : second ∈ contexts) :
    engine.valueWithin depth name first = engine.valueWithin depth name second := by
  induction depth generalizing name first second with
  | zero => rfl
  | succ depth ih =>
      rw [valueWithin_succ, valueWithin_succ]
      cases hmetric : engine.registry.metrics.get? name with
      | none => rw [byDefinition_of_unknown hmetric, byDefinition_of_unknown hmetric]
      | some metric =>
          have hadmits := h.admits first hfirst second hsecond
          have hfunctions := hnamed name metric hmetric
          rw [byDefinition_of_metric hmetric, byDefinition_of_metric hmetric]
          cases hkind : metric.kind with
          | fact fact => exact factValue_congr (hadmits _)
          | expression expression =>
              rw [hkind] at hfunctions
              exact expressionValue_congr hfunctions (hadmits _)
          | derived derived =>
              rw [hkind] at hfunctions
              obtain ⟨combine, hcombine⟩ := hfunctions
              have hentries : entriesOf (engine.valueWithin depth) first derived.dependsOn =
                  entriesOf (engine.valueWithin depth) second derived.dependsOn :=
                mapM_congr fun dependency _ => by rw [ih hfirst hsecond]
              rw [kindValue, kindValue, hcombine, hentries]
          | transform transform =>
              rw [kindValue, kindValue, transformed, transformed]
              cases hchange : engine.registry.transforms.get? transform.transform with
              | none => rfl
              | some change =>
                  exact ih (h.closed _ change hchange first hfirst)
                    (h.closed _ change hchange second hsecond)

theorem Uniform.tellsApart (h : engine.Uniform contexts) (hnamed : engine.Named) :
    engine.TellsApart contexts where
  closed := h.closed
  value_eq := fun _ _ hfirst _ hsecond _ => h.valueWithin_eq hnamed _ hfirst hsecond

theorem Uniform.evaluateMetric_eq (h : engine.Uniform contexts) (hnamed : engine.Named)
    (hfounded : engine.Founded) (hfirst : first ∈ contexts) (hsecond : second ∈ contexts) :
    engine.evaluateMetric name first = engine.evaluateMetric name second := by
  have htells := h.tellsApart hnamed
  rw [hfounded.evaluateMetric_of_tellsApart htells name hfirst,
    hfounded.evaluateMetric_of_tellsApart htells name hsecond]
  exact h.valueWithin_eq hnamed _ hfirst hsecond

/-- The context, opened on the year, and then year to date. -/
def openings (keys : TimeKeys) (context : Context) : Set Context :=
  {context, context.opened keys.year, yearToDate keys (context.opened keys.year)}

theorem admitAlike_of_mem_openings (h : context.get? keys.year = none)
    (hperiod : context.PeriodToDate keys) (hfirst : first ∈ openings keys context)
    (grain : List String) : AdmitAlike grain context first := by
  intro row
  have hopened := admitAlike_opened h grain row
  rcases hfirst with rfl | rfl | rfl
  · rfl
  · exact hopened
  · exact hopened.trans ((hperiod.opened keys.year).admitAlike grain row)

theorem get?_opened_year (keys : TimeKeys) (context : Context) :
    (context.opened keys.year).get? keys.year = some (.range .unbounded) := by
  rw [get?_opened, if_pos rfl]

theorem priorPeriod_of_mem_openings (h : context.get? keys.year = none)
    (hfirst : first ∈ openings keys context) : priorPeriod keys first = first := by
  have hyear := get?_opened_year keys context
  rcases hfirst with rfl | rfl | rfl
  · rw [priorPeriod_eq_stepped, stepped_of_get?_none h]
  · exact priorPeriod_of_unbounded hyear
  · exact priorPeriod_of_unbounded (get?_yearToDate_of_unbounded hyear)

theorem yearToDate_mem_openings (h : context.get? keys.year = none)
    (hfirst : first ∈ openings keys context) : yearToDate keys first ∈ openings keys context := by
  have hunconstrained : context.constrains keys.year = false := by
    rw [constrains, h]
    rfl
  rcases hfirst with rfl | rfl | rfl
  · exact .inl (yearToDate_of_unconstrained hunconstrained)
  · exact .inr (.inr rfl)
  · exact .inr (.inr (yearToDate_yearToDate keys _))

theorem uniform_openings (htransforms : engine.registry.transforms = .builtin keys)
    (h : context.get? keys.year = none) (hperiod : context.PeriodToDate keys) :
    engine.Uniform (openings keys context) where
  admits := by
    intro first hfirst second hsecond grain row
    exact (admitAlike_of_mem_openings h hperiod hfirst grain row).symm.trans
      (admitAlike_of_mem_openings h hperiod hsecond grain row)
  closed := by
    intro name change hchange first hfirst
    have htoDate := yearToDate_mem_openings h hfirst
    have hprior := priorPeriod_of_mem_openings h hfirst
    rw [htransforms] at hchange
    rcases Transforms.builtin_cases hchange with ⟨-, rfl⟩ | ⟨-, rfl⟩ | ⟨-, rfl⟩
    · exact htoDate
    · rw [hprior]
      exact hfirst
    · dsimp only
      rw [hprior]
      exact htoDate

/-- With a fresh cache, the transform of a measure is the measure under the changed context. -/
theorem evaluateMetric_of_transformedFact {metric base : Metric} {transform : TransformMetric}
    {fact : FactMetric} (hmetric : engine.registry.metrics.get? name = some metric)
    (hkind : metric.kind = .transform transform)
    (hbase : engine.registry.metrics.get? transform.base = some base)
    (hfact : base.kind = .fact fact) {change : Transform}
    (hchange : engine.registry.transforms.get? transform.transform = some change) :
    engine.evaluateMetric name context = engine.factValue fact (change context) := by
  obtain ⟨size, hsize⟩ : ∃ size, engine.registry.metrics.size = size + 1 := by
    have hmem := KeyMap.mem_keys_iff.mpr ⟨metric, hmetric⟩
    refine Nat.exists_eq_succ_of_ne_zero fun hzero => ?_
    rw [← KeyMap.length_keys] at hzero
    rw [List.length_eq_zero_iff.mp hzero] at hmem
    cases hmem
  have hstep : engine.definitionStep (engine.evaluateWithin (size + 1)) name context =
      engine.evaluateWithin (size + 1) transform.base (change context) := by
    rw [definitionStep, Engine.metric, hmetric, Evaluation.ofExcept, pure_bind, hkind]
    dsimp only
    rw [transformed, hchange, Evaluation.ofExcept, pure_bind]
  have hvalue : engine.definitionStep (engine.evaluateWithin size) transform.base
      (change context) = .ofExcept (engine.factValue fact (change context)) := by
    rw [definitionStep, Engine.metric, hbase, Evaluation.ofExcept, pure_bind, hfact]
  rw [evaluateMetric, evaluate, maxDepth, hsize, evaluateWithin_succ, run_memoised,
    Cache.find?_empty, hstep, evaluateWithin_succ, run_memoised, Cache.find?_look,
    Cache.find?_empty, hvalue]
  dsimp only
  rw [run_ofExcept]
  cases engine.factValue fact (change context) <;> rfl

def eventTables (keys : TimeKeys) : List FactTable :=
  [⟨"events", [keys.period], KeyMap.ofList [("count", ⟨keys.period, .count, none⟩)]⟩]

def eventMetrics : List Metric :=
  [.fact "events" "events" "count", .transform "events so far" "events" "ytd"]

/-- One event, in the given period. -/
def eventOf (keys : TimeKeys) (period : Value) : Engine where
  registry := {
    factTables := KeyMap.ofList ((eventTables keys).map fun table => (table.name, table))
    metrics := KeyMap.ofList (eventMetrics.map fun metric => (metric.name, metric))
    transforms := .builtin keys }
  database := KeyMap.ofList [("events", [KeyMap.empty.insert keys.period period])]
  display := .standard

theorem build_eventOf (keys : TimeKeys) (period : Value) :
    Registry.build (eventTables keys) eventMetrics (.builtin keys) =
      .ok (eventOf keys period).registry := by
  have hcycles : (Registry.mk KeyMap.empty
      (KeyMap.ofList (eventMetrics.map fun metric => (metric.name, metric)))
      KeyMap.empty).cycles = [] := by decide +kernel
  exact build_of_acyclic (by decide +kernel) hcycles

theorem named_eventMetrics : ∀ definition ∈ eventMetrics, definition.kind.Named := by
  intro definition hdefinition
  simp only [eventMetrics, List.mem_cons, List.not_mem_nil, or_false] at hdefinition
  rcases hdefinition with rfl | rfl
  · trivial
  · trivial

/-- The event counts if its period is kept. -/
theorem evaluateMetric_eventOf {period : Value} {filter : Filter}
    (h : (yearToDate keys context).get? keys.period = some filter) :
    (eventOf keys period).evaluateMetric "events so far" context =
      .ok (some (Float.ofNat (if filter.keeps period then 1 else 0))) := by
  have hchange : (eventOf keys period).registry.transforms.get? "ytd" = some (yearToDate keys) := by
    change (Transforms.builtin keys).get? "ytd" = _
    rw [Transforms.builtin, KeyMap.get?_ofList]
    rfl
  have hvalue : (eventOf keys period).factValue ⟨"events", "count", none, none⟩
      (yearToDate keys context) = .ok (some (Float.ofNat
        ((RowSet.ofRows [KeyMap.empty.insert keys.period period]).narrowToGrain
          (yearToDate keys context) [keys.period]).count)) := rfl
  have hadmits := admits_singleton_iff h period
  rw [evaluateMetric_of_transformedFact rfl rfl rfl rfl hchange, hvalue, RowSet.count,
    RowSet.rows_narrowToGrain, RowSet.rows_ofRows]
  by_cases hkeeps : filter.keeps period = true
  · simp [hadmits.mpr hkeeps, hkeeps]
  · simp [mt hadmits.mp hkeeps, hkeeps]

theorem periodToDate_of_forall (hyear : context.get? keys.year = none)
    (h : ∀ period, (eventOf keys period).evaluateMetric "events so far"
      (context.opened keys.year) = (eventOf keys period).evaluateMetric "events so far" context) :
    context.PeriodToDate keys := by
  intro filter upper hfilter hupper cell
  have hne : keys.period ≠ keys.year := by
    intro heq
    rw [heq, hyear] at hfilter
    cases hfilter
  have hnull : filter.isNull = false := by
    refine Bool.eq_false_iff.mpr fun hnull => ?_
    rw [upTo?_of_isNull filter hnull] at hupper
    cases hupper
  have hbefore : (yearToDate keys context).get? keys.period = some filter := by
    rw [yearToDate_of_unconstrained (by rw [constrains, hyear]; rfl), hfilter]
  have hafter : (yearToDate keys (context.opened keys.year)).get? keys.period =
      some (.range upper) := by
    have hopened : (context.opened keys.year).get? keys.period = some filter := by
      rw [get?_opened, if_neg hne, hfilter]
    have hconstrained : (context.opened keys.year).constrains keys.year = true :=
      constrains_of_unbounded (by rw [get?_opened, if_pos rfl])
    rw [yearToDate_of_constrained hconstrained hopened hupper, withRange, get?_withFilter,
      if_pos rfl]
  have hcount := h cell
  rw [evaluateMetric_eventOf hbefore, evaluateMetric_eventOf hafter, Filter.keeps_range,
    Filter.keeps, hnull, Bool.false_or] at hcount
  have hnumbers : Float.ofNat 1 ≠ Float.ofNat 0 := by decide +kernel
  cases hupper : upper.holds cell <;> cases hfilter : filter.holds cell
  · rfl
  · rw [hupper, hfilter] at hcount
    exact absurd (Option.some.inj (Except.ok.inj hcount)).symm hnumbers
  · rw [hupper, hfilter] at hcount
    exact absurd (Option.some.inj (Except.ok.inj hcount)) hnumbers
  · rfl

/-- The registry was built with the built-in transforms from metrics that a model file can name. -/
def Declared (keys : TimeKeys) (engine : Engine) : Prop :=
  ∃ factTables definitions,
    Registry.build factTables definitions (.builtin keys) = .ok engine.registry ∧
      ∀ definition ∈ definitions, definition.kind.Named

theorem Declared.named (h : engine.Declared keys) : engine.Named := by
  obtain ⟨_, _, hbuild, hnamed⟩ := h
  exact fun _ metric hmetric => hnamed metric (mem_definitions_of_build hbuild hmetric)

theorem Declared.transforms (h : engine.Declared keys) :
    engine.registry.transforms = .builtin keys := by
  obtain ⟨_, _, hbuild, _⟩ := h
  rw [(build_eq_ok hbuild).1]

theorem Declared.founded (h : engine.Declared keys) : engine.Founded := by
  obtain ⟨_, _, hbuild, _⟩ := h
  exact endsWithin_of_build hbuild

theorem declared_eventOf (keys : TimeKeys) (period : Value) :
    (eventOf keys period).Declared keys :=
  ⟨eventTables keys, eventMetrics, build_eventOf keys period, named_eventMetrics⟩

/-- **A range without bounds is no constraint**, but for the year and year-to-date: a context that
is opened on a dimension without a filter has the same metrics if the dimension is not the year, or
the metric leads to no transform to date. Opened on the year, it has the same metrics in all
registries just when its period holds the same cells up to its end. -/
theorem evaluateMetric_opened (keys : TimeKeys) {context : Context} {dimension : String}
    (habsent : context.get? dimension = none) :
    (∀ engine : Engine, engine.Declared keys → ∀ name,
      dimension ≠ keys.year ∨ ¬ engine.registry.LeadsToDate name →
        engine.evaluateMetric name (context.opened dimension) =
          engine.evaluateMetric name context) ∧
      (dimension = keys.year →
        ((∀ engine : Engine, engine.Declared keys → ∀ name,
          engine.evaluateMetric name (context.opened dimension) =
            engine.evaluateMetric name context) ↔ context.PeriodToDate keys)) := by
  constructor
  · intro engine hdeclared name hopen
    have hleads := leadsAlike_opened hdeclared.transforms hopen habsent
    exact (lockstep_evaluateWithin_of_leadsAlike hdeclared.named _ hleads (.refl _ _) .empty .empty
      (Cache.matched_empty _ _)).1.symm
  · rintro rfl
    constructor
    · intro h
      exact periodToDate_of_forall habsent fun period => h _ (declared_eventOf keys period) _
    · intro hperiod engine hdeclared name
      have huniform := uniform_openings hdeclared.transforms habsent hperiod
      exact huniform.evaluateMetric_eq hdeclared.named hdeclared.founded (.inr (.inl rfl)) (.inl rfl)

def inMarch : Context := Context.withFilter .empty "month" (.equals (.int 3))

theorem not_periodToDate_inMarch : ¬ inMarch.PeriodToDate .standard := by
  intro hperiod
  have hfebruary := hperiod (.equals (.int 3)) (.atMost (.int 3)) rfl rfl (.int 2)
  exact absurd hfebruary (by decide +kernel)

/-- A region without bounds does not matter in March, but a year without bounds does. -/
theorem evaluateMetric_opened_inMarch :
    inMarch.get? "region" = none ∧ inMarch.get? "year" = none ∧
      (∀ engine : Engine, engine.Declared .standard → ∀ name,
        engine.evaluateMetric name (inMarch.opened "region") =
          engine.evaluateMetric name inMarch) ∧
      ¬ ∀ engine : Engine, engine.Declared .standard → ∀ name,
        engine.evaluateMetric name (inMarch.opened "year") =
          engine.evaluateMetric name inMarch := by
  have hregion : inMarch.get? "region" = none := rfl
  have hyear : inMarch.get? "year" = none := rfl
  refine ⟨hregion, hyear, fun engine hdeclared name => ?_, fun hall => ?_⟩
  · exact (evaluateMetric_opened .standard hregion).1 engine hdeclared name (.inl (by decide))
  · exact not_periodToDate_inMarch (((evaluateMetric_opened .standard hyear).2 rfl).mp hall)

end Engine

end MetricLayer
