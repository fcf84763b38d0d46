import MetricLayer.Proofs.Evaluation.Memo
import MetricLayer.Proofs.Registry.Formats

/-!
# How deep evaluations are nested

`Engine.call` is one call of the evaluation, with the calls that it makes left to a function, and
`Engine.nested` lets calls be nested to some depth and leaves deeper ones to a function of their
own. In a registry that was built no call is nested deeper than there are metrics, plus one for a
name that is not registered: whatever the function beyond that depth does, it does not show. So the
recursion without any bound has one solution, `Engine.evaluate`.
-/

namespace MetricLayer.Engine

open Evaluation Registry

/-- The outcomes of metrics under contexts, with what they do to the cache. -/
abbrev Calls := String → Context → Evaluation (Option Float)

def call (engine : Engine) (deeper : Calls) : Calls := fun name context =>
  memoised (.of name context) (engine.definitionStep deeper name context)

/-- Calls nested to that depth; calls nested deeper are left to `beyond`. -/
def nested (engine : Engine) (beyond : Calls) : Nat → Calls
  | 0 => beyond
  | depth + 1 => engine.call (engine.nested beyond depth)

variable {engine : Engine} {name : String} {context : Context}

/-- A step makes calls for the metrics that the definition refers to only. -/
theorem definitionStep_congr {first second : Calls}
    (h : ∀ other, RefersTo engine.registry.metrics name other →
      ∀ context, first other context = second other context) :
    engine.definitionStep first name context = engine.definitionStep second name context := by
  rw [definitionStep, definitionStep]
  cases hmetric : engine.metric name with
  | error error => rfl
  | ok metric =>
      have hfound := metric_eq_ok hmetric
      rw [Evaluation.ofExcept, pure_bind, pure_bind]
      cases hkind : metric.kind with
      | fact fact => rfl
      | expression expression => rfl
      | derived derived =>
          have hentries : ∀ other ∈ derived.dependsOn, first other context = second other context :=
            fun other hother => h other (refersTo_of_derived hfound hkind hother) context
          dsimp only
          rw [mapM_congr fun other hother => by rw [hentries other hother]]
      | transform transform =>
          dsimp only
          congr 1
          funext changed
          exact h transform.base (refersTo_of_transform hfound hkind) changed

/-- What is beyond the end of every chain of references is not called. -/
theorem nested_eq_of_endsWithin {first second : Calls} {depth : Nat}
    (hends : EndsWithin engine.registry.metrics depth name) (context : Context) :
    engine.nested first depth name context = engine.nested second depth name context := by
  induction depth generalizing name context with
  | zero => exact hends.elim
  | succ depth ih =>
      rw [nested, nested, call, call,
        definitionStep_congr fun other hother context => ih (hends other hother) context]

theorem evaluateWithin_eq_nested (engine : Engine) (depth : Nat) :
    engine.evaluateWithin depth =
      engine.nested (fun name _ => throw (.cyclicDefinition [name])) depth := by
  induction depth with
  | zero => rfl
  | succ depth ih =>
      funext name context
      rw [evaluateWithin_succ, ih]
      rfl

theorem Founded.nested_eq_evaluate (h : engine.Founded) (beyond : Calls) :
    engine.nested beyond engine.maxDepth = engine.evaluate := by
  funext name context
  rw [evaluate, evaluateWithin_eq_nested]
  exact nested_eq_of_endsWithin (h name) context

/-- A solution of the recursion stays what it is however deep it is unrolled. -/
theorem nested_of_solution {calls : Calls} (h : engine.call calls = calls) (depth : Nat) :
    engine.nested calls depth = calls := by
  induction depth with
  | zero => rfl
  | succ depth ih => rw [nested, ih, h]

theorem nested_succ (engine : Engine) (beyond : Calls) (depth : Nat) :
    engine.nested beyond (depth + 1) = engine.nested (engine.call beyond) depth := by
  induction depth with
  | zero => rfl
  | succ depth ih => rw [nested, ih, nested]

theorem Founded.call_evaluate (h : engine.Founded) : engine.call engine.evaluate = engine.evaluate :=
  calc engine.call engine.evaluate
      = engine.nested engine.evaluate (engine.maxDepth + 1) := by
        rw [nested, h.nested_eq_evaluate]
    _ = engine.nested (engine.call engine.evaluate) engine.maxDepth := nested_succ ..
    _ = engine.evaluate := h.nested_eq_evaluate _

theorem Founded.call_eq_iff (h : engine.Founded) (calls : Calls) :
    engine.call calls = calls ↔ calls = engine.evaluate := by
  constructor
  · intro hcalls
    rw [← h.nested_eq_evaluate calls, nested_of_solution hcalls]
  · rintro rfl
    exact h.call_evaluate

/-- **Evaluation ends within the size of the registry.** In a registry that was built no evaluation
and no search for a format makes calls that are nested deeper than there are metrics, plus one. The
recursion of the evaluation has no other solution, and the format is that of the chain of bases. -/
theorem nested_evaluate_and_format {factTables : List FactTable} {definitions : List Metric}
    {transforms : Transforms} {registry : Registry}
    (hbuild : Registry.build factTables definitions transforms = .ok registry)
    (database : Database) (display : DisplaySettings) :
    let engine : Engine := ⟨registry, database, display⟩
    let depth := registry.metrics.size + 1
    (∀ beyond, engine.nested beyond depth = engine.evaluate) ∧
      (∀ calls, engine.call calls = calls ↔ calls = engine.evaluate) ∧
      (∀ beyond, registry.nestedFormat beyond depth = registry.displayFormat?) ∧
      ∀ name, ∃ chain, registry.BaseChain name chain ∧ chain.length ≤ depth ∧
        registry.displayFormat? name = registry.chainFormat? chain := by
  intro engine depth
  have hfounded : engine.Founded := founded_of_build hbuild database display
  have hchain : ∀ name, ∃ chain, registry.BaseChain name chain ∧ chain.length ≤ depth :=
    fun name => exists_baseChain (endsWithin_of_build hbuild name)
  refine ⟨hfounded.nested_eq_evaluate, hfounded.call_eq_iff, fun beyond => ?_, fun name => ?_⟩
  · funext name
    obtain ⟨chain, hchain, hlength⟩ := hchain name
    rw [displayFormat?, formatWithin_eq_nestedFormat, hchain.nestedFormat_eq _ hlength,
      hchain.nestedFormat_eq _ hlength]
  · obtain ⟨chain, hchain, hlength⟩ := hchain name
    refine ⟨chain, hchain, hlength, ?_⟩
    rw [displayFormat?, formatWithin_eq_nestedFormat, hchain.nestedFormat_eq _ hlength]

/-! The measure has a format, and so has the share; the budget is not registered. -/

def pricedTables : List FactTable :=
  [⟨"sales", ["year"], KeyMap.ofList [("revenue", ⟨"revenue", .sum, some .currency⟩)]⟩]

def pricedMetrics : List Metric := [
  .fact "revenue" "sales" "revenue",
  .transform "last year" "revenue" "prior_period",
  .transform "last year so far" "last year" "ytd",
  { Metric.derived "share" ["revenue", "budget"] (fun values _ _ => values.get? "revenue") with
    format := some .percent },
  .transform "last share" "share" "prior_period",
  .transform "last budget" "budget" "prior_period"]

def pricedRegistry : Registry where
  factTables := KeyMap.ofList (pricedTables.map fun table => (table.name, table))
  metrics := KeyMap.ofList (pricedMetrics.map fun metric => (metric.name, metric))
  transforms := .builtin .standard

theorem build_pricedRegistry :
    Registry.build pricedTables pricedMetrics (.builtin .standard) = .ok pricedRegistry :=
  build_of_acyclic (by decide +kernel) (by decide +kernel)

theorem baseChain_lastYearSoFar :
    pricedRegistry.BaseChain "last year so far" ["last year so far", "last year", "revenue"] :=
  .step (by decide +kernel) (.step (by decide +kernel) (.last (by decide +kernel)))

/-- A format that comes from a measure over two transforms, one that comes from a metric, and none
where the chain leads to a name that is not registered. -/
theorem nested_evaluate_and_format_pricedRegistry :
    let engine : Engine := ⟨pricedRegistry, salesRows, .standard⟩
    (∀ beyond, engine.nested beyond 7 = engine.evaluate) ∧
      (∀ calls, engine.call calls = calls ↔ calls = engine.evaluate) ∧
      (∀ beyond, pricedRegistry.nestedFormat beyond 7 = pricedRegistry.displayFormat?) ∧
      (∀ name, ∃ chain, pricedRegistry.BaseChain name chain ∧ chain.length ≤ 7 ∧
        pricedRegistry.displayFormat? name = pricedRegistry.chainFormat? chain) ∧
      pricedRegistry.BaseChain "last year so far" ["last year so far", "last year", "revenue"] ∧
      pricedRegistry.measureFormat? "revenue" = some .currency ∧
      pricedRegistry.displayFormat? "last year so far" = some .currency ∧
      pricedRegistry.displayFormat? "last share" = some .percent ∧
      pricedRegistry.displayFormat? "last budget" = none := by
  intro engine
  obtain ⟨hevaluate, hsolution, hformat, hchain⟩ :=
    nested_evaluate_and_format build_pricedRegistry salesRows .standard
  exact ⟨hevaluate, hsolution, hformat, hchain, baseChain_lastYearSoFar, by decide +kernel,
    by decide +kernel, by decide +kernel, by decide +kernel⟩

end MetricLayer.Engine
