import MetricLayer.Metric.Aggregate
import MetricLayer.Proofs.Context.Agreement
import MetricLayer.Proofs.Evaluation.Coverage
import MetricLayer.Proofs.Evaluation.Lockstep

/-!
# Dimensions that do not matter

A metric depends on a context through the grains of the fact and expression metrics that it leads
to, and through the time keys if it leads to a transform. Two contexts that agree on those
dimensions are taken through the same evaluations side by side: they are changed alike, and the two
caches hold the same values under the keys of contexts that were changed alike.
-/

namespace MetricLayer

namespace Evaluation

variable {α β : Type} {related : Cache → Cache → Prop}

theorem lockstep_ofExcept (outcome : Except MetricError α) :
    Lockstep related (ofExcept outcome) (ofExcept outcome) := by
  cases outcome with
  | error error => exact lockstep_throw error
  | ok value => exact lockstep_pure value

/-- Either both keys are found, with one value, or neither is. -/
theorem lockstep_memoised {key other : CacheKey} {first second : Evaluation (Option Float)}
    (hcompute : Lockstep related first second)
    (hfound : ∀ cache others, related cache others → cache.find? key = others.find? other)
    (hlook : ∀ cache others, related cache others →
      related (cache.look key).2 (others.look other).2)
    (hstore : ∀ cache others value, related cache others →
      related (cache.store key value) (others.store other value)) :
    Lockstep related (Engine.memoised key first) (Engine.memoised other second) := by
  intro cache others hrelated
  have hlooked := hlook cache others hrelated
  rw [run_memoised, run_memoised, ← hfound cache others hrelated]
  cases cache.find? key with
  | some value => exact ⟨rfl, hlooked⟩
  | none =>
      obtain ⟨houtcome, hcaches⟩ := hcompute _ _ hlooked
      rcases hrun : first.run.run (cache.look key).2 with ⟨outcome, one⟩
      rcases hrun' : second.run.run (others.look other).2 with ⟨outcome', two⟩
      rw [hrun, hrun'] at houtcome hcaches
      obtain rfl : outcome = outcome' := houtcome
      cases outcome with
      | error error => exact ⟨rfl, hcaches⟩
      | ok value => exact ⟨rfl, hstore one two value hcaches⟩

end Evaluation

/-- Whatever the metric computes by a function, it computes by one that a model file can name. -/
def MetricKind.Named : MetricKind → Prop
  | expression metric =>
      ∃ aggregate : Aggregate, metric.aggregator = fun rows _ _ => aggregate.apply rows
  | derived metric =>
      ∃ combine : Combine, metric.combinator = fun values _ _ => combine.apply values
  | fact _ | transform _ => True

theorem Aggregate.apply_congr {first second : RowSet} (h : first.rows = second.rows)
    (aggregate : Aggregate) : aggregate.apply first = aggregate.apply second := by
  cases aggregate with
  | distinctCount column => rw [apply, apply, distinctTexts, distinctTexts, h]
  | min column => rw [apply, apply, numbersOf, numbersOf, h]
  | max column => rw [apply, apply, numbersOf, numbersOf, h]
  | weightedAvg value weight => rw [apply, apply, weightedTotals, weightedTotals, h]

theorem Engine.aggregate_congr {first second : RowSet} (h : first.rows = second.rows)
    (aggregation : Aggregation) (column : String) :
    Engine.aggregate aggregation first column = Engine.aggregate aggregation second column := by
  cases aggregation with
  | sum => rw [aggregate, aggregate, RowSet.sum, RowSet.sum, h]
  | avg => rw [aggregate, aggregate, RowSet.average?, RowSet.average?, h]
  | count => rw [aggregate, aggregate, RowSet.count, RowSet.count, h]

namespace Registry

open Relation

def tableGrain (registry : Registry) (factTable : String) : List String :=
  (registry.factTables.get? factTable).elim [] FactTable.grain

/-- The grain that a metric narrows rows to: its own, else that of its fact table. -/
def effectiveGrain (registry : Registry) : MetricKind → List String
  | .fact fact => fact.grain.getD (registry.tableGrain fact.factTable)
  | .expression expression => expression.grain.getD (registry.tableGrain expression.factTable)
  | .derived _ | .transform _ => []

/-- The dimensions that the definition itself depends on. -/
def readBy (registry : Registry) (keys : TimeKeys) : MetricKind → Set String
  | .transform _ => {keys.year, keys.period}
  | kind => {dimension | dimension ∈ registry.effectiveGrain kind}

/-- The dimensions that the metric or one that it leads to depends on. -/
def relevant (registry : Registry) (keys : TimeKeys) (name : String) : Set String :=
  {dimension | ∃ reached metric, ReflTransGen (RefersTo registry.metrics) name reached ∧
    registry.metrics.get? reached = some metric ∧ dimension ∈ registry.readBy keys metric.kind}

variable {registry : Registry} {keys : TimeKeys} {name other : String} {metric : Metric}

theorem mem_definitions_of_build {factTables : List FactTable} {definitions : List Metric}
    {transforms : Transforms} (hbuild : build factTables definitions transforms = .ok registry)
    (h : registry.metrics.get? name = some metric) : metric ∈ definitions := by
  rw [(build_eq_ok hbuild).1, KeyMap.get?_ofList] at h
  have hmem := KeyMap.mem_of_lookup_eq_some h
  rw [List.mem_reverse, List.mem_map] at hmem
  obtain ⟨definition, hdefinition, hentry⟩ := hmem
  obtain rfl : definition = metric := (Prod.mk.inj hentry).2
  exact hdefinition

end Registry

namespace Registry

open Context Relation

/-- Of contexts that were changed alike the definition selects the same rows, and its transform
changes them alike again. -/
structure TakesAlike (registry : Registry) (start other : Context) (kind : MetricKind) : Prop where
  admits : ∀ first second, ChangedAlike start other first second →
    AdmitAlike (registry.effectiveGrain kind) first second
  change : ∀ transform change, kind = .transform transform →
    registry.transforms.get? transform.transform = some change →
      ∀ first second, ChangedAlike start other first second →
        ChangedAlike start other (change first) (change second)

/-- The metric and those that it leads to take the contexts alike. -/
def LeadsAlike (registry : Registry) (start other : Context) (name : String) : Prop :=
  ∀ reached metric, ReflTransGen (RefersTo registry.metrics) name reached →
    registry.metrics.get? reached = some metric → registry.TakesAlike start other metric.kind

variable {registry : Registry} {keys : TimeKeys} {name next : String} {start other : Context}

theorem LeadsAlike.step (h : registry.LeadsAlike start other name)
    (hnext : RefersTo registry.metrics name next) : registry.LeadsAlike start other next :=
  fun reached metric hreached => h reached metric (.head hnext hreached)

/-- Contexts that agree on the relevant dimensions are taken alike. -/
theorem leadsAlike_of_agreesOn (htransforms : registry.transforms = .builtin keys)
    (hagree : AgreesOn (registry.relevant keys name) start other) :
    registry.LeadsAlike start other name := by
  intro reached metric hreached hmetric
  have hread : AgreesOn (registry.readBy keys metric.kind) start other :=
    fun dimension hdimension => hagree dimension ⟨reached, metric, hreached, hmetric, hdimension⟩
  constructor
  · intro first second halike
    cases hkind : metric.kind with
    | fact fact =>
        rw [hkind] at hread
        exact AgreesOn.admitAlike (halike.agreesOn hread)
    | expression expression =>
        rw [hkind] at hread
        exact AgreesOn.admitAlike (halike.agreesOn hread)
    | derived derived => exact AgreesOn.admitAlike fun _ hnone => absurd hnone List.not_mem_nil
    | transform transform => exact AgreesOn.admitAlike fun _ hnone => absurd hnone List.not_mem_nil
  · intro transform change hkind hchange first second halike
    rw [hkind] at hread
    rw [htransforms] at hchange
    exact halike.builtin hchange hread

end Registry

namespace Cache

/-- The caches hold the same values under the keys of contexts that were changed alike. -/
def Matched (start other : Context) (cache others : Cache) : Prop :=
  ∀ name first second, Context.ChangedAlike start other first second →
    cache.find? (.of name first) = others.find? (.of name second)

variable {start other first second : Context} {cache others : Cache}

theorem matched_empty (start other : Context) : Matched start other .empty .empty :=
  fun _ _ _ _ => rfl

theorem Matched.look (h : Matched start other cache others) (key key' : CacheKey) :
    Matched start other (cache.look key).2 (others.look key').2 := by
  intro name first second halike
  rw [find?_look, find?_look]
  exact h name first second halike

theorem Matched.store (h : Matched start other cache others)
    (halike : Context.ChangedAlike start other first second) (name : String)
    (value : Option Float) :
    Matched start other (cache.store (.of name first) value)
      (others.store (.of name second) value) := by
  intro held one two hheld
  have hkeys : CacheKey.of held one = .of name first ↔ CacheKey.of held two = .of name second := by
    simp only [CacheKey.of, CacheKey.mk.injEq, hheld.key_eq_iff halike]
  rw [find?_store, find?_store, h held one two hheld]
  simp only [hkeys]

end Cache

namespace Engine

open Context Evaluation Registry

variable {engine : Engine} {keys : TimeKeys} {name : String}
  {start other first second : Context}

theorem factValue_congr {fact : FactMetric}
    (h : AdmitAlike (engine.registry.effectiveGrain (.fact fact)) first second) :
    engine.factValue fact first = engine.factValue fact second := by
  rw [factValue, factValue, factTable]
  cases htable : engine.registry.factTables.get? fact.factTable with
  | none => rfl
  | some table =>
      have hgrain : engine.registry.effectiveGrain (.fact fact) = fact.grain.getD table.grain := by
        rw [effectiveGrain, tableGrain, htable, Option.elim_some]
      rw [hgrain] at h
      cases hmeasure : table.measures.get? fact.measure with
      | none => simp only [bind, Except.bind, hmeasure]
      | some measure =>
          simp only [bind, Except.bind, hmeasure]
          cases engine.loadedRows fact.factTable with
          | error error => rfl
          | ok rows =>
              dsimp only
              rw [aggregate_congr (RowSet.rows_narrowToGrain_congr h rows)]

theorem expressionValue_congr {expression : ExpressionMetric}
    (hnamed : (MetricKind.expression expression).Named)
    (h : AdmitAlike (engine.registry.effectiveGrain (.expression expression)) first second) :
    engine.expressionValue expression first = engine.expressionValue expression second := by
  obtain ⟨aggregate, haggregate⟩ := hnamed
  rw [expressionValue, expressionValue, haggregate]
  cases hexpression : engine.expressionGrain expression with
  | error error => rfl
  | ok grain =>
      have hgrain : engine.registry.effectiveGrain (.expression expression) = grain := by
        rw [expressionGrain] at hexpression
        rw [effectiveGrain, tableGrain]
        cases hown : expression.grain with
        | some own =>
            rw [hown] at hexpression
            exact Except.ok.inj hexpression
        | none =>
            rw [hown, factTable] at hexpression
            cases htable : engine.registry.factTables.get? expression.factTable with
            | none =>
                rw [htable] at hexpression
                cases hexpression
            | some table =>
                rw [htable] at hexpression
                exact Except.ok.inj hexpression
      rw [hgrain] at h
      simp only [bind, Except.bind]
      cases engine.loadedRows expression.factTable with
      | error error => rfl
      | ok rows =>
          dsimp only
          rw [aggregate.apply_congr (RowSet.rows_narrowToGrain_congr h rows)]

def Named (engine : Engine) : Prop :=
  ∀ name metric, engine.registry.metrics.get? name = some metric → metric.kind.Named

/-- One step side by side. Both contexts of the evaluations that it starts were changed alike if its
own were. -/
theorem lockstep_definitionStep {evaluate : String → Context → Evaluation (Option Float)}
    (hnamed : engine.Named) (hleads : engine.registry.LeadsAlike start other name)
    (halike : ChangedAlike start other first second)
    (h : ∀ next, RefersTo engine.registry.metrics name next → ∀ first second,
      ChangedAlike start other first second →
        Lockstep (Cache.Matched start other) (evaluate next first) (evaluate next second)) :
    Lockstep (Cache.Matched start other) (engine.definitionStep evaluate name first)
      (engine.definitionStep evaluate name second) := by
  refine (lockstep_ofExcept _).bind fun metric ⟨cache, hmetric⟩ => ?_
  rw [run_ofExcept] at hmetric
  have hfound := metric_eq_ok hmetric
  have htakes := hleads name metric .refl hfound
  have hadmit := htakes.admits first second halike
  have hfunctions := hnamed name metric hfound
  cases hkind : metric.kind with
  | fact fact =>
      rw [hkind] at hadmit
      dsimp only
      rw [factValue_congr hadmit]
      exact lockstep_ofExcept _
  | expression expression =>
      rw [hkind] at hadmit hfunctions
      dsimp only
      rw [expressionValue_congr hfunctions hadmit]
      exact lockstep_ofExcept _
  | derived derived =>
      rw [hkind] at hfunctions
      obtain ⟨combine, hcombine⟩ := hfunctions
      dsimp only
      rw [hcombine]
      refine (lockstep_mapM fun next hnext => ?_).bind fun entries _ => lockstep_pure _
      refine (h next (refersTo_of_derived hfound hkind hnext) first second halike).bind
        fun value _ => lockstep_pure (next, value)
  | transform transform =>
      dsimp only
      rw [transformed, transformed]
      cases hchange : engine.registry.transforms.get? transform.transform with
      | none => exact lockstep_throw _
      | some change =>
          exact h transform.base (refersTo_of_transform hfound hkind) _ _
            (htakes.change transform change hkind hchange first second halike)

/-- Contexts that a metric takes alike are evaluated side by side. -/
theorem lockstep_evaluateWithin_of_leadsAlike (hnamed : engine.Named) (depth : Nat)
    (hleads : engine.registry.LeadsAlike start other name)
    (halike : ChangedAlike start other first second) :
    Lockstep (Cache.Matched start other) (engine.evaluateWithin depth name first)
      (engine.evaluateWithin depth name second) := by
  induction depth generalizing name first second with
  | zero => exact lockstep_throw _
  | succ depth ih =>
      rw [evaluateWithin_succ, evaluateWithin_succ]
      refine lockstep_memoised ?_ (fun cache others hmatched => hmatched name first second halike)
        (fun cache others hmatched => hmatched.look _ _)
        fun cache others value hmatched => hmatched.store halike name value
      exact lockstep_definitionStep hnamed hleads halike
        fun next hnext _ _ halike => ih (hleads.step hnext) halike

theorem lockstep_evaluateWithin (hnamed : engine.Named)
    (htransforms : engine.registry.transforms = .builtin keys) (depth : Nat)
    (hagree : AgreesOn (engine.registry.relevant keys name) start other)
    (halike : ChangedAlike start other first second) :
    Lockstep (Cache.Matched start other) (engine.evaluateWithin depth name first)
      (engine.evaluateWithin depth name second) :=
  lockstep_evaluateWithin_of_leadsAlike hnamed depth (leadsAlike_of_agreesOn htransforms hagree)
    halike

/-- **Only the relevant dimensions matter.** In a registry with the built-in transforms whose
metrics are named, a metric has the same value, or fails with the same error, under all contexts
that agree on the grains of the metrics that it leads to, and on the time keys if a transform is
among them. -/
theorem evaluateMetric_eq_of_agreesOn {factTables : List FactTable} {definitions : List Metric}
    {keys : TimeKeys} {registry : Registry}
    (hbuild : Registry.build factTables definitions (.builtin keys) = .ok registry)
    (hnamed : ∀ definition ∈ definitions, definition.kind.Named) (database : Database)
    (display : DisplaySettings) {name : String} {first second : Context}
    (hagree : AgreesOn (registry.relevant keys name) first second) :
    Engine.evaluateMetric ⟨registry, database, display⟩ name first =
      Engine.evaluateMetric ⟨registry, database, display⟩ name second := by
  have hmetrics : Engine.Named ⟨registry, database, display⟩ :=
    fun _ metric hmetric => hnamed metric (mem_definitions_of_build hbuild hmetric)
  have htransforms : registry.transforms = .builtin keys := by rw [(build_eq_ok hbuild).1]
  exact (lockstep_evaluateWithin hmetrics htransforms _ hagree (.refl first second) .empty .empty
    (Cache.matched_empty first second)).1

/-! The month counts for growth, but not a month that is null, and no region does. -/

theorem relevant_trendRegistry_subset (name : String) :
    trendRegistry.relevant .standard name ⊆ {"year", "month"} := by
  rintro dimension ⟨reached, metric, -, hmetric, hdimension⟩
  have hmem := mem_definitions_of_build build_trendRegistry hmetric
  simp only [trendMetrics, List.mem_cons, List.not_mem_nil, or_false] at hmem
  rcases hmem with rfl | rfl | rfl | rfl
  · have hgrain : dimension ∈ ["year"] := hdimension
    exact .inl (List.mem_singleton.mp hgrain)
  · exact hdimension
  · exact hdimension
  · exact absurd hdimension List.not_mem_nil

def europeOnly (context : Context) : Context :=
  (context.withFilter "region" (.equals (.string "EU"))).withFilter "month" (.equals .null)

theorem evaluateMetric_eq_of_agreesOn_growth :
    (europeOnly (ofYear 2024)).key ≠ (ofYear 2024).key ∧
      Engine.evaluateMetric ⟨trendRegistry, salesRows, .standard⟩ "growth" (ofYear 2024) =
        Engine.evaluateMetric ⟨trendRegistry, salesRows, .standard⟩ "growth"
          (europeOnly (ofYear 2024)) := by
  refine ⟨by decide +kernel, evaluateMetric_eq_of_agreesOn build_trendRegistry ?_ salesRows
    .standard fun dimension hdimension => ?_⟩
  · intro definition hdefinition
    simp only [trendMetrics, List.mem_cons, List.not_mem_nil, or_false] at hdefinition
    rcases hdefinition with rfl | rfl | rfl | rfl
    · trivial
    · trivial
    · trivial
    · exact ⟨.growth "revenue" "last year so far", rfl⟩
  · rcases relevant_trendRegistry_subset "growth" hdimension with rfl | rfl
    · rfl
    · rfl

end Engine

end MetricLayer
