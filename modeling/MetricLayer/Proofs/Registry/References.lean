import MetricLayer.Proofs.Evaluation.Recursion
import MetricLayer.Proofs.Evaluation.Runs

/-!
# Dangling references and errors

`Registry.danglingReferences` looks up front for what evaluation would stumble over. It misses one
thing: an expression that has no grain of its own takes the grain of its fact table, and nothing
looks whether that table is defined when its rows are loaded. Apart from that the list holds every
error of every registered metric.
-/

namespace MetricLayer

open Evaluation

namespace Registry

variable {registry : Registry} {database : Option Database} {error : MetricError}

def noteDangling (registry : Registry) (database : Option Database) (errors : List MetricError)
    (metric : Metric) : List MetricError :=
  let found := errors ++ registry.danglingIn metric
  match unloadedIn database metric with
  | some error => if found.contains error then found else found ++ [error]
  | none => found

theorem mem_noteDangling_iff {errors : List MetricError} {metric : Metric} :
    error ∈ noteDangling registry database errors metric ↔
      error ∈ errors ∨ error ∈ registry.danglingIn metric ∨
        unloadedIn database metric = some error := by
  unfold noteDangling
  dsimp only
  cases hunloaded : unloadedIn database metric with
  | none => simp
  | some unloaded =>
      dsimp only
      split
      · rename_i hfound
        have hfound : unloaded ∈ errors ++ registry.danglingIn metric := by simpa using hfound
        rw [← or_assoc, ← List.mem_append]
        refine ⟨.inl, fun h => ?_⟩
        rcases h with h | h
        · exact h
        · obtain rfl := Option.some.inj h
          exact hfound
      · rw [List.mem_append, List.mem_append, List.mem_singleton, or_assoc, Option.some.injEq,
          eq_comm]

theorem mem_danglingReferences_iff :
    error ∈ registry.danglingReferences database ↔
      ∃ metric ∈ registry.metrics.values,
        error ∈ registry.danglingIn metric ∨ unloadedIn database metric = some error := by
  have hfold : ∀ (metrics : List Metric) (errors : List MetricError),
      error ∈ metrics.foldl (noteDangling registry database) errors ↔
      error ∈ errors ∨ ∃ metric ∈ metrics,
        error ∈ registry.danglingIn metric ∨ unloadedIn database metric = some error := by
    intro metrics
    induction metrics with
    | nil => simp
    | cons metric rest ih =>
        intro errors
        rw [List.foldl_cons, ih, mem_noteDangling_iff, or_assoc, List.exists_mem_cons_iff]
  change error ∈ registry.metrics.values.foldl (noteDangling registry database) [] ↔ _
  rw [hfold]
  simp

/-- A table that is loaded and not defined, that an expression takes its grain from, and that no
measure is asked of. -/
structure Overlooked (registry : Registry) (database : Database) (table : String) : Prop where
  loaded : database.contains table = true
  undefined : registry.factTables.get? table = none
  read : ∃ metric ∈ registry.metrics.values, ∃ expression : ExpressionMetric,
    metric.kind = .expression expression ∧ expression.factTable = table ∧ expression.grain = none
  unmeasured : ∀ metric ∈ registry.metrics.values, ∀ fact : FactMetric,
    metric.kind = .fact fact → fact.factTable ≠ table

section Listed

variable {database : Database} {metric : Metric} (hmetric : metric ∈ registry.metrics.values)

include hmetric

theorem listed_of_undefined_fact {fact : FactMetric} (hkind : metric.kind = .fact fact)
    (h : registry.factTables.get? fact.factTable = none) :
    .unknownFactTable fact.factTable ∈ registry.danglingReferences (some database) := by
  refine mem_danglingReferences_iff.mpr ⟨metric, hmetric, .inl ?_⟩
  rw [danglingIn, hkind]
  dsimp only
  rw [h]
  exact List.mem_singleton_self _

theorem listed_of_unknown_measure {fact : FactMetric} (hkind : metric.kind = .fact fact)
    {table : FactTable} (htable : registry.factTables.get? fact.factTable = some table)
    (h : table.measures.get? fact.measure = none) :
    .unknownMeasure fact.factTable fact.measure ∈ registry.danglingReferences (some database) := by
  refine mem_danglingReferences_iff.mpr ⟨metric, hmetric, .inl ?_⟩
  rw [danglingIn, hkind]
  dsimp only
  rw [htable]
  dsimp only
  rw [KeyMap.contains_eq_false_iff.mpr h]
  exact List.mem_singleton_self _

theorem listed_of_unloaded {table : String} (htable : metric.factTable? = some table)
    (h : database.get? table = none) :
    .unknownFactTable table ∈ registry.danglingReferences (some database) := by
  refine mem_danglingReferences_iff.mpr ⟨metric, hmetric, .inr ?_⟩
  rw [unloadedIn, htable]
  change (if database.contains table then none else some (MetricError.unknownFactTable table)) = _
  rw [KeyMap.contains_eq_false_iff.mpr h]
  rfl

theorem listed_of_unknown_dependency {derived : DerivedMetric}
    (hkind : metric.kind = .derived derived) {other : String} (hother : other ∈ derived.dependsOn)
    (h : registry.metrics.get? other = none) :
    .unknownMetric other ∈ registry.danglingReferences (some database) := by
  refine mem_danglingReferences_iff.mpr ⟨metric, hmetric, .inl ?_⟩
  rw [danglingIn, hkind]
  refine List.mem_map.mpr ⟨other, List.mem_filter.mpr ⟨hother, ?_⟩, rfl⟩
  rw [KeyMap.contains_eq_false_iff.mpr h]
  rfl

theorem listed_of_unknown_base {transform : TransformMetric}
    (hkind : metric.kind = .transform transform) (h : registry.metrics.get? transform.base = none) :
    .unknownMetric transform.base ∈ registry.danglingReferences (some database) := by
  refine mem_danglingReferences_iff.mpr ⟨metric, hmetric, .inl ?_⟩
  rw [danglingIn, hkind]
  dsimp only
  rw [KeyMap.contains_eq_false_iff.mpr h]
  exact List.mem_append_left _ (List.mem_singleton_self _)

theorem listed_of_unknown_transform {transform : TransformMetric}
    (hkind : metric.kind = .transform transform)
    (h : registry.transforms.get? transform.transform = none) :
    .unknownTransform transform.transform ∈ registry.danglingReferences (some database) := by
  refine mem_danglingReferences_iff.mpr ⟨metric, hmetric, .inl ?_⟩
  rw [danglingIn, hkind]
  dsimp only
  rw [KeyMap.contains_eq_false_iff.mpr h]
  exact List.mem_append_right _ (List.mem_singleton_self _)

end Listed

end Registry

namespace Engine

open Registry

variable {engine : Engine} {name : String} {context : Context}

/-- An error of a registered metric: one that is listed, or that of a table that was overlooked. -/
def Foreseen (engine : Engine) (error : MetricError) : Prop :=
  error ∈ engine.registry.danglingReferences (some engine.database) ∨
    ∃ table, error = .unknownFactTable table ∧ engine.registry.Overlooked engine.database table

section Kinds

variable {metric : Metric} (hmetric : metric ∈ engine.registry.metrics.values)

include hmetric

theorem failsWithin_loadedRows {table : String} (htable : metric.factTable? = some table) :
    FailsWithin engine.Foreseen (engine.loadedRows table) := by
  rw [loadedRows, Database.rowSet?]
  cases hrows : engine.database.get? table with
  | some rows => exact failsWithin_ok _
  | none => exact failsWithin_error (.inl (listed_of_unloaded hmetric htable hrows))

theorem failsWithin_factValue {fact : FactMetric} (hkind : metric.kind = .fact fact) :
    FailsWithin engine.Foreseen (engine.factValue fact context) := by
  rw [factValue, factTable]
  cases htable : engine.registry.factTables.get? fact.factTable with
  | none => exact failsWithin_error (.inl (listed_of_undefined_fact hmetric hkind htable))
  | some table =>
      dsimp only [bind, Except.bind]
      cases hmeasure : table.measures.get? fact.measure with
      | none =>
          exact failsWithin_error (.inl (listed_of_unknown_measure hmetric hkind htable hmeasure))
      | some measure =>
          refine failsWithin_bind (failsWithin_loadedRows hmetric ?_) fun rows => failsWithin_ok _
          rw [Metric.factTable?, hkind]

/-- An undefined table is reported when it is not loaded or when a measure is asked of it. -/
theorem foreseen_of_undefined {expression : ExpressionMetric}
    (hkind : metric.kind = .expression expression) (hgrain : expression.grain = none)
    (h : engine.registry.factTables.get? expression.factTable = none) :
    engine.Foreseen (.unknownFactTable expression.factTable) := by
  cases hrows : engine.database.get? expression.factTable with
  | none =>
      refine .inl (listed_of_unloaded hmetric ?_ hrows)
      rw [Metric.factTable?, hkind]
  | some rows =>
      by_cases hmeasured : ∃ other ∈ engine.registry.metrics.values, ∃ fact : FactMetric,
          other.kind = .fact fact ∧ fact.factTable = expression.factTable
      · obtain ⟨other, hother, fact, hfact, htable⟩ := hmeasured
        rw [← htable] at h ⊢
        exact .inl (listed_of_undefined_fact hother hfact h)
      · refine .inr ⟨expression.factTable, rfl, ?_⟩
        exact {
          loaded := KeyMap.contains_iff.mpr ⟨rows, hrows⟩
          undefined := h
          read := ⟨metric, hmetric, expression, hkind, rfl, hgrain⟩
          unmeasured := fun other hother fact hfact htable =>
            hmeasured ⟨other, hother, fact, hfact, htable⟩ }

theorem failsWithin_expressionValue {expression : ExpressionMetric}
    (hkind : metric.kind = .expression expression) :
    FailsWithin engine.Foreseen (engine.expressionValue expression context) := by
  refine failsWithin_bind ?_ fun grain => ?_
  · rw [expressionGrain]
    cases hgrain : expression.grain with
    | some grain => exact failsWithin_ok grain
    | none =>
        dsimp only
        rw [factTable]
        cases htable : engine.registry.factTables.get? expression.factTable with
        | some table => exact failsWithin_ok _
        | none => exact failsWithin_error (foreseen_of_undefined hmetric hkind hgrain htable)
  · refine failsWithin_bind (failsWithin_loadedRows hmetric ?_) fun rows => failsWithin_ok _
    rw [Metric.factTable?, hkind]

end Kinds

theorem failsWithin_metric (h : engine.registry.metrics.contains name = true ∨
    engine.Foreseen (.unknownMetric name)) :
    FailsWithin engine.Foreseen (engine.metric name) := by
  rw [Engine.metric]
  cases hfound : engine.registry.metrics.get? name with
  | some metric => exact failsWithin_ok metric
  | none =>
      rcases h with h | h
      · rw [KeyMap.contains_eq_false_iff.mpr hfound] at h
        cases h
      · exact failsWithin_error h

/-- The name is registered, or the error of asking for it is foreseen. -/
theorem registered_or_foreseen
    (h : engine.registry.metrics.get? name = none → engine.Foreseen (.unknownMetric name)) :
    engine.registry.metrics.contains name = true ∨ engine.Foreseen (.unknownMetric name) := by
  cases hfound : engine.registry.metrics.get? name with
  | some metric => exact .inl (KeyMap.contains_iff.mpr ⟨metric, hfound⟩)
  | none => exact .inr (h hfound)

/-- With any cache, a registered metric fails with foreseen errors only. -/
theorem ensures_evaluateWithin_foreseen (depth : Nat)
    (hends : EndsWithin engine.registry.metrics depth name)
    (hname : engine.registry.metrics.contains name = true ∨
      engine.Foreseen (.unknownMetric name)) :
    Ensures (fun _ => True) (engine.evaluateWithin depth name context)
      (FailsWithin engine.Foreseen) := by
  induction depth generalizing name context with
  | zero => exact hends.elim
  | succ depth ih =>
      rw [evaluateWithin_succ]
      refine ensures_memoised ?_ (fun _ value _ _ => failsWithin_ok value) (fun _ _ => trivial)
        fun _ _ _ _ => trivial
      have hlookup :
          Computes (fun _ => True) (.ofExcept (engine.metric name)) (engine.metric name) :=
        computes_ofExcept _
      refine Ensures.bind hlookup (fun metric hmetric => ?_) fun error herror => ?_
      · have hfound : engine.registry.metrics.get? name = some metric := metric_eq_ok hmetric.symm
        have hmem : metric ∈ engine.registry.metrics.values :=
          KeyMap.mem_values_iff.mpr ⟨name, hfound⟩
        cases hkind : metric.kind with
        | fact fact => exact ensures_ofExcept (failsWithin_factValue hmem hkind)
        | expression expression => exact ensures_ofExcept (failsWithin_expressionValue hmem hkind)
        | derived derived =>
            refine ensures_bind_failsWithin (ensures_mapM_failsWithin fun other hother => ?_)
              fun entries => ensures_pure_failsWithin _
            refine ensures_bind_failsWithin ?_ fun value => ensures_pure_failsWithin (other, value)
            refine ih (hends other (refersTo_of_derived hfound hkind hother)) ?_
            exact registered_or_foreseen fun hunknown =>
              .inl (listed_of_unknown_dependency hmem hkind hother hunknown)
        | transform transform =>
            refine ensures_bind_failsWithin (ensures_ofExcept ?_) fun changed => ?_
            · rw [transformed]
              cases hchange : engine.registry.transforms.get? transform.transform with
              | some change => exact failsWithin_ok _
              | none =>
                  exact failsWithin_error (.inl (listed_of_unknown_transform hmem hkind hchange))
            · refine ih (hends transform.base (refersTo_of_transform hfound hkind)) ?_
              exact registered_or_foreseen fun hunknown =>
                .inl (listed_of_unknown_base hmem hkind hunknown)
      · exact failsWithin_error (failsWithin_metric hname error herror.symm)

theorem evaluateMetric_of_expression {metric : Metric} {expression : ExpressionMetric}
    (hmetric : engine.registry.metrics.get? name = some metric)
    (hkind : metric.kind = .expression expression) :
    engine.evaluateMetric name context = engine.expressionValue expression context := by
  have hstep : engine.definitionStep (engine.evaluateWithin engine.registry.metrics.size) name
      context = .ofExcept (engine.expressionValue expression context) := by
    rw [definitionStep, Engine.metric, hmetric, Evaluation.ofExcept, pure_bind, hkind]
  rw [evaluateMetric, evaluate, maxDepth, evaluateWithin_succ, run_memoised, Cache.find?_empty,
    hstep]
  dsimp only
  rw [run_ofExcept]
  cases engine.expressionValue expression context <;> rfl

theorem expressionValue_of_undefined {expression : ExpressionMetric}
    (hgrain : expression.grain = none)
    (h : engine.registry.factTables.get? expression.factTable = none) :
    engine.expressionValue expression context =
      .error (.unknownFactTable expression.factTable) := by
  rw [expressionValue, expressionGrain, hgrain]
  dsimp only
  rw [factTable, h]
  rfl

theorem not_listed_of_overlooked {registry : Registry} {database : Database} {table : String}
    (h : registry.Overlooked database table) :
    .unknownFactTable table ∉ registry.danglingReferences (some database) := by
  intro hlisted
  obtain ⟨metric, hmetric, hdangling | hunloaded⟩ := mem_danglingReferences_iff.mp hlisted
  · rw [danglingIn] at hdangling
    cases hkind : metric.kind with
    | fact fact =>
        rw [hkind] at hdangling
        have hother := h.unmeasured metric hmetric fact hkind
        dsimp only at hdangling
        split at hdangling
        · obtain rfl := MetricError.unknownFactTable.inj (List.mem_singleton.mp hdangling)
          exact hother rfl
        · split at hdangling
          · cases hdangling
          · cases List.mem_singleton.mp hdangling
    | expression expression =>
        rw [hkind] at hdangling
        cases hdangling
    | derived derived =>
        rw [hkind] at hdangling
        obtain ⟨other, _, hother⟩ := List.mem_map.mp hdangling
        cases hother
    | transform transform =>
        rw [hkind] at hdangling
        rcases List.mem_append.mp hdangling with hdangling | hdangling
        · split at hdangling
          · cases hdangling
          · cases List.mem_singleton.mp hdangling
        · split at hdangling
          · cases hdangling
          · cases List.mem_singleton.mp hdangling
  · rw [unloadedIn, Option.bind_eq_bind, Option.bind_some] at hunloaded
    obtain ⟨read, _, hread⟩ := Option.bind_eq_some_iff.mp hunloaded
    split at hread
    · cases hread
    · rename_i hcontains
      obtain rfl := MetricError.unknownFactTable.inj (Option.some.inj hread)
      exact hcontains h.loaded

/-- **What the list of dangling references leaves out.** The errors of registered metrics that are
not on the list are those of the tables that were overlooked, and each of these is one. So an empty
list rules errors out just when no table was overlooked. -/
theorem unlisted_error_iff {factTables : List FactTable} {definitions : List Metric}
    {transforms : Transforms} {registry : Registry}
    (hbuild : Registry.build factTables definitions transforms = .ok registry) (database : Database)
    (display : DisplaySettings) :
    let engine : Engine := ⟨registry, database, display⟩
    (∀ error, (∃ name context, registry.metrics.contains name = true ∧
          engine.evaluateMetric name context = .error error ∧
          error ∉ registry.danglingReferences (some database)) ↔
        ∃ table, error = .unknownFactTable table ∧ registry.Overlooked database table) ∧
      (registry.danglingReferences (some database) = [] →
        ((∀ name context, registry.metrics.contains name = true →
          ∃ value, engine.evaluateMetric name context = .ok value) ↔
          ∀ table, ¬ registry.Overlooked database table)) := by
  intro engine
  have hforeseen : ∀ name context error, registry.metrics.contains name = true →
      engine.evaluateMetric name context = .error error → engine.Foreseen error := by
    intro name context error hname herror
    exact (ensures_evaluateWithin_foreseen _ (endsWithin_of_build hbuild name) (.inl hname)
      .empty trivial).1 error herror
  have hraised : ∀ table, registry.Overlooked database table →
      ∃ name, registry.metrics.contains name = true ∧
        ∀ context, engine.evaluateMetric name context = .error (.unknownFactTable table) := by
    intro table htable
    obtain ⟨metric, hmetric, expression, hkind, rfl, hgrain⟩ := htable.read
    obtain ⟨name, hname⟩ := KeyMap.mem_values_iff.mp hmetric
    refine ⟨name, KeyMap.contains_iff.mpr ⟨metric, hname⟩, fun context => ?_⟩
    have hvalue : engine.evaluateMetric name context = engine.expressionValue expression context :=
      evaluateMetric_of_expression hname hkind
    rw [hvalue]
    exact expressionValue_of_undefined hgrain htable.undefined
  refine ⟨fun error => ⟨?_, ?_⟩, fun hempty => ⟨?_, ?_⟩⟩
  · rintro ⟨name, context, hname, herror, hunlisted⟩
    exact (hforeseen name context error hname herror).resolve_left hunlisted
  · rintro ⟨table, rfl, htable⟩
    obtain ⟨name, hname, herror⟩ := hraised table htable
    exact ⟨name, .empty, hname, herror .empty, not_listed_of_overlooked htable⟩
  · intro hvalues table htable
    obtain ⟨name, hname, herror⟩ := hraised table htable
    obtain ⟨value, hvalue⟩ := hvalues name .empty hname
    rw [herror] at hvalue
    cases hvalue
  · intro hnone name context hname
    cases houtcome : engine.evaluateMetric name context with
    | ok value => exact ⟨value, rfl⟩
    | error error =>
        rcases hforeseen name context error hname houtcome with hlisted | ⟨table, _, htable⟩
        · have hlisted : error ∈ registry.danglingReferences (some database) := hlisted
          rw [hempty] at hlisted
          cases hlisted
        · exact absurd htable (hnone table)

def orders : Metric := .expression "orders" "sales" fun rows _ _ => some (Float.ofNat rows.count)

def ordersRegistry : Registry where
  factTables := KeyMap.ofList (([] : List FactTable).map fun table => (table.name, table))
  metrics := KeyMap.ofList ([orders].map fun metric => (metric.name, metric))
  transforms := .builtin .standard

def ordersRows : Database := KeyMap.ofList [("sales", [KeyMap.ofList [("region", .string "EU")]])]

theorem build_ordersRegistry :
    Registry.build [] [orders] (.builtin .standard) = .ok ordersRegistry :=
  build_of_acyclic (by decide +kernel) (by decide +kernel)

theorem overlooked_sales : ordersRegistry.Overlooked ordersRows "sales" where
  loaded := by decide +kernel
  undefined := rfl
  read := ⟨orders, List.mem_singleton_self _, _, rfl, rfl, rfl⟩
  unmeasured := by
    intro metric hmetric fact hkind
    obtain rfl := List.mem_singleton.mp hmetric
    cases hkind

/-- Nothing is listed, and the only metric fails. -/
theorem unlisted_error_ordersRegistry :
    ordersRegistry.danglingReferences (some ordersRows) = [] ∧
      ¬ ∀ name context, ordersRegistry.metrics.contains name = true →
        ∃ value, Engine.evaluateMetric ⟨ordersRegistry, ordersRows, .standard⟩ name context =
          .ok value := by
  have hempty : ordersRegistry.danglingReferences (some ordersRows) = [] := by decide +kernel
  refine ⟨hempty, fun hvalues => ?_⟩
  exact ((unlisted_error_iff build_ordersRegistry ordersRows .standard).2 hempty).mp hvalues
    "sales" overlooked_sales

end Engine

end MetricLayer
