import MetricLayer.Evaluation
import MetricLayer.Proofs.Registry.Depth

/-!
# The recursion over definitions

`Engine.byDefinition` is one step of the recursion: it reads the definition of a metric and leaves
the metrics that the definition refers to to a function. `Engine.value` bounds its depth by the size
of the registry. In a registry that was built the bound is never met: `value` is the one function
that satisfies the equation of the recursion.
-/

namespace MetricLayer.Engine

open Registry

/-- The values of metrics under contexts. -/
abbrev Valuation := String → Context → Except MetricError (Option Float)

/-- The dependencies with their values, in order, up to the first error. -/
def entriesOf (values : Valuation) (context : Context) (names : List String) :
    Except MetricError (List (String × Option Float)) :=
  names.mapM fun name => do
    let value ← values name context
    return (name, value)

/-- The value of a metric of that kind, given the values of the metrics that it refers to. -/
def kindValue (engine : Engine) (values : Valuation) (context : Context) :
    MetricKind → Except MetricError (Option Float)
  | .fact fact => engine.factValue fact context
  | .expression expression => engine.expressionValue expression context
  | .derived derived => do
      let entries ← entriesOf values context derived.dependsOn
      return derived.combinator (.ofList entries) engine.database context
  | .transform transform => do
      let changed ← engine.transformed transform.transform context
      values transform.base changed

/-- The value of a metric by its definition, given the values of the metrics that it refers to. -/
def byDefinition (engine : Engine) (values : Valuation) : Valuation := fun name context => do
  let metric ← engine.metric name
  engine.kindValue values context metric.kind

/-- A valuation that obeys the definitions of all metrics. -/
def ObeysDefinitions (engine : Engine) (values : Valuation) : Prop :=
  ∀ name context, values name context = engine.byDefinition values name context

/-- No chain of references is longer than the recursion may be deep. -/
def Founded (engine : Engine) : Prop :=
  ∀ name, EndsWithin engine.registry.metrics engine.maxDepth name

theorem founded_of_build {factTables : List FactTable} {definitions : List Metric}
    {transforms : Transforms} {registry : Registry}
    (h : Registry.build factTables definitions transforms = .ok registry) (database : Database)
    (display : DisplaySettings) : Founded ⟨registry, database, display⟩ :=
  endsWithin_of_build h

variable {engine : Engine} {name : String} {context : Context}

section Kinds

variable {values : Valuation} {metric : Metric}

theorem byDefinition_of_unknown (h : engine.registry.metrics.get? name = none) :
    engine.byDefinition values name context = .error (.unknownMetric name) := by
  rw [byDefinition, Engine.metric, h]
  rfl

theorem byDefinition_of_metric (h : engine.registry.metrics.get? name = some metric) :
    engine.byDefinition values name context = engine.kindValue values context metric.kind := by
  rw [byDefinition, Engine.metric, h]
  rfl

theorem metric_eq_ok (h : engine.metric name = .ok metric) :
    engine.registry.metrics.get? name = some metric := by
  rw [Engine.metric] at h
  split at h
  · rename_i found hfound
    rw [hfound, Except.ok.inj h]
  · cases h

theorem refersTo_of_derived {derived : DerivedMetric} {other : String}
    (h : engine.registry.metrics.get? name = some metric) (hkind : metric.kind = .derived derived)
    (hother : other ∈ derived.dependsOn) : RefersTo engine.registry.metrics name other :=
  ⟨metric, h, by rw [Metric.dependencies, hkind]; exact hother⟩

theorem refersTo_of_transform {transform : TransformMetric}
    (h : engine.registry.metrics.get? name = some metric)
    (hkind : metric.kind = .transform transform) :
    RefersTo engine.registry.metrics name transform.base :=
  ⟨metric, h, by rw [Metric.dependencies, hkind]; exact List.mem_singleton_self _⟩

end Kinds

theorem valueWithin_succ (depth : Nat) :
    engine.valueWithin (depth + 1) name context =
      engine.byDefinition (engine.valueWithin depth) name context := rfl

theorem mapM_congr {m : Type → Type} [Monad m] [LawfulMonad m] {α β : Type} {first second : α → m β}
    {items : List α} (h : ∀ item ∈ items, first item = second item) :
    items.mapM first = items.mapM second := by
  induction items with
  | nil => rfl
  | cons head rest ih =>
      rw [List.mapM_cons, List.mapM_cons, h head List.mem_cons_self,
        ih fun item hmem => h item (List.mem_cons_of_mem _ hmem)]

theorem entriesOf_congr {first second : Valuation} {names : List String}
    (h : ∀ name ∈ names, first name context = second name context) :
    entriesOf first context names = entriesOf second context names :=
  mapM_congr fun name hmem => by rw [h name hmem]

/-- The step depends on the values of the metrics referred to only. -/
theorem byDefinition_congr {first second : Valuation}
    (h : ∀ other, RefersTo engine.registry.metrics name other →
      ∀ context, first other context = second other context) :
    engine.byDefinition first name context = engine.byDefinition second name context := by
  cases hmetric : engine.registry.metrics.get? name with
  | none => rw [byDefinition_of_unknown hmetric, byDefinition_of_unknown hmetric]
  | some metric =>
      rw [byDefinition_of_metric hmetric, byDefinition_of_metric hmetric]
      cases hkind : metric.kind with
      | fact fact => rfl
      | expression expression => rfl
      | derived derived =>
          rw [kindValue, kindValue, entriesOf_congr fun other hmem =>
            h other (refersTo_of_derived hmetric hkind hmem) context]
      | transform transform =>
          rw [kindValue, kindValue]
          congr 1
          funext changed
          exact h transform.base (refersTo_of_transform hmetric hkind) changed

/-- A bound that no chain of references meets does not show in the value. -/
theorem valueWithin_eq_of_le {depth more : Nat}
    (hends : EndsWithin engine.registry.metrics depth name) (hle : depth ≤ more) :
    engine.valueWithin more name context = engine.valueWithin depth name context := by
  induction depth generalizing more name context with
  | zero => exact hends.elim
  | succ depth ih =>
      obtain ⟨extra, rfl⟩ : ∃ extra, more = extra + 1 := ⟨more - 1, by omega⟩
      rw [valueWithin_succ, valueWithin_succ]
      exact byDefinition_congr fun other hother context => ih (hends other hother) (by omega)

theorem Founded.obeysDefinitions (h : engine.Founded) : engine.ObeysDefinitions engine.value := by
  intro name context
  obtain hends : EndsWithin engine.registry.metrics (engine.registry.metrics.size + 1) name :=
    h name
  rw [Engine.value, maxDepth, valueWithin_succ]
  refine byDefinition_congr fun other hother context => ?_
  exact (valueWithin_eq_of_le (hends other hother) (Nat.le_succ _)).symm

theorem eq_valueWithin_of_obeysDefinitions {values : Valuation}
    (hvalues : engine.ObeysDefinitions values) {depth : Nat}
    (hends : EndsWithin engine.registry.metrics depth name) :
    values name context = engine.valueWithin depth name context := by
  induction depth generalizing name context with
  | zero => exact hends.elim
  | succ depth ih =>
      rw [hvalues, valueWithin_succ]
      exact byDefinition_congr fun other hother context => ih (hends other hother)

theorem Founded.eq_value (h : engine.Founded) {values : Valuation}
    (hvalues : engine.ObeysDefinitions values) : values = engine.value := by
  funext name context
  exact eq_valueWithin_of_obeysDefinitions hvalues (h name)

end MetricLayer.Engine
