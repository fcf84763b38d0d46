import MetricLayer.Proofs.Context.Transforms
import MetricLayer.Proofs.Evaluation.Recursion
import MetricLayer.Proofs.Evaluation.Runs

/-!
# The cache does not show

A cache agrees with an engine if every value that it holds is the value of its metric, under every
context of that key without floating-point numbers. Evaluation keeps this, whether it fails or not,
and gives the plain value. So a sequence of calls that share a cache gives the plain values,
whatever came before each of them.
-/

namespace MetricLayer

namespace CacheKey

theorem of_inj {name other : String} {first second : Context} (hfirst : first.FloatFree)
    (hsecond : second.FloatFree) (h : of name first = of other second) :
    name = other ∧ first = second := by
  obtain ⟨hname, hkey⟩ := CacheKey.mk.inj h
  exact ⟨hname, Context.key_inj hfirst hsecond hkey⟩

end CacheKey

namespace Engine

open Evaluation Registry

variable {engine : Engine} {name : String} {context : Context}

/-- No transform leads out of the contexts, and under those of one key a metric has one value. -/
structure TellsApart (engine : Engine) (contexts : Set Context) : Prop where
  closed : ∀ name change, engine.registry.transforms.get? name = some change →
    ∀ context ∈ contexts, change context ∈ contexts
  value_eq : ∀ name, ∀ first ∈ contexts, ∀ second ∈ contexts, first.key = second.key →
    engine.value name first = engine.value name second

/-- Under those contexts the cache holds nothing but plain values. -/
def AgreesWithin (engine : Engine) (contexts : Set Context) (cache : Cache) : Prop :=
  ∀ name context value, context ∈ contexts →
    cache.find? (.of name context) = some value → engine.value name context = .ok value

section Within

variable {contexts : Set Context} {cache : Cache}

/-- A step computes what the definition gives if the evaluations that it starts do. -/
theorem computes_definitionStep {inv : Cache → Prop}
    {evaluate : String → Context → Evaluation (Option Float)} {values : Valuation}
    (htells : engine.TellsApart contexts)
    (h : ∀ other, RefersTo engine.registry.metrics name other → ∀ context ∈ contexts,
      Computes inv (evaluate other context) (values other context))
    (hcontext : context ∈ contexts) :
    Computes inv (engine.definitionStep evaluate name context)
      (engine.byDefinition values name context) := by
  refine (computes_ofExcept (engine.metric name)).bind fun metric hmetric => ?_
  have hfound := metric_eq_ok hmetric
  cases hkind : metric.kind with
  | fact fact => exact computes_ofExcept _
  | expression expression => exact computes_ofExcept _
  | derived derived =>
      refine Computes.bind (computes_mapM fun other hmem => ?_) fun entries _ => computes_pure _
      have hother := h other (refersTo_of_derived hfound hkind hmem) context hcontext
      refine hother.bind fun value _ => ?_
      exact computes_pure (other, value)
  | transform transform =>
      refine (computes_ofExcept (engine.transformed transform.transform context)).bind
        fun changed hchanged => ?_
      refine h transform.base (refersTo_of_transform hfound hkind) changed ?_
      rw [transformed] at hchanged
      split at hchanged
      · rename_i change hchange
        obtain rfl := Except.ok.inj hchanged
        exact htells.closed _ change hchange context hcontext
      · cases hchanged

theorem agreesWithin_empty (engine : Engine) (contexts : Set Context) :
    engine.AgreesWithin contexts .empty := by
  intro name context value _ hfound
  cases hfound

theorem AgreesWithin.look (h : engine.AgreesWithin contexts cache) (key : CacheKey) :
    engine.AgreesWithin contexts (cache.look key).2 := by
  intro name context value hcontext hfound
  rw [Cache.find?_look] at hfound
  exact h name context value hcontext hfound

theorem AgreesWithin.store (h : engine.AgreesWithin contexts cache)
    (htells : engine.TellsApart contexts) (hcontext : context ∈ contexts) {value : Option Float}
    (hvalue : engine.value name context = .ok value) :
    engine.AgreesWithin contexts (cache.store (.of name context) value) := by
  intro other held found hheld hfound
  rw [Cache.find?_store] at hfound
  split at hfound
  · rename_i hkey
    obtain ⟨rfl, hkeys⟩ := CacheKey.mk.inj hkey
    obtain rfl := Option.some.inj hfound
    rw [htells.value_eq _ held hheld context hcontext hkeys]
    exact hvalue
  · exact h other held found hheld hfound

/-- Among contexts that are told apart the cache does not show. -/
theorem Founded.computes_of_tellsApart (hfounded : engine.Founded)
    (htells : engine.TellsApart contexts) (depth : Nat)
    (hends : EndsWithin engine.registry.metrics depth name) (hcontext : context ∈ contexts) :
    Computes (engine.AgreesWithin contexts) (engine.evaluateWithin depth name context)
      (engine.value name context) := by
  induction depth generalizing name context with
  | zero => exact hends.elim
  | succ depth ih =>
      rw [evaluateWithin_succ]
      refine ensures_memoised ?_
        (fun cache value hagrees hfound => (hagrees name context value hcontext hfound).symm)
        (fun cache hagrees => hagrees.look _)
        fun cache value hagrees hvalue => hagrees.store htells hcontext hvalue.symm
      rw [hfounded.obeysDefinitions name context]
      exact computes_definitionStep htells
        (fun other hother context hcontext => ih (hends other hother) hcontext) hcontext

theorem Founded.evaluateMetric_of_tellsApart (hfounded : engine.Founded)
    (htells : engine.TellsApart contexts) (name : String) (hcontext : context ∈ contexts) :
    engine.evaluateMetric name context = engine.value name context :=
  (hfounded.computes_of_tellsApart htells _ (hfounded name) hcontext .empty
    (engine.agreesWithin_empty contexts)).1

end Within

theorem tellsApart_floatFree (htransforms : engine.registry.transforms.KeepFloatFree) :
    engine.TellsApart {context | context.FloatFree} where
  closed := htransforms
  value_eq := fun _ _ hfirst _ hsecond hkey => by rw [Context.key_inj hfirst hsecond hkey]

def Agrees (engine : Engine) (cache : Cache) : Prop :=
  ∀ name (context : Context) value, context.FloatFree →
    cache.find? (.of name context) = some value → engine.value name context = .ok value

theorem agrees_empty (engine : Engine) : engine.Agrees .empty :=
  engine.agreesWithin_empty {context | context.FloatFree}

theorem Founded.computes_evaluateWithin (hfounded : engine.Founded)
    (htransforms : engine.registry.transforms.KeepFloatFree) (depth : Nat)
    (hends : EndsWithin engine.registry.metrics depth name) (hcontext : context.FloatFree) :
    Computes engine.Agrees (engine.evaluateWithin depth name context)
      (engine.value name context) :=
  hfounded.computes_of_tellsApart (tellsApart_floatFree htransforms) depth hends hcontext

theorem Founded.computes_evaluate (hfounded : engine.Founded)
    (htransforms : engine.registry.transforms.KeepFloatFree) (name : String)
    (hcontext : context.FloatFree) :
    Computes engine.Agrees (engine.evaluate name context) (engine.value name context) :=
  hfounded.computes_evaluateWithin htransforms _ (hfounded name) hcontext

theorem Founded.evaluateMetric_eq_value (hfounded : engine.Founded)
    (htransforms : engine.registry.transforms.KeepFloatFree) (name : String)
    (hcontext : context.FloatFree) :
    engine.evaluateMetric name context = engine.value name context :=
  (hfounded.computes_evaluate htransforms name hcontext .empty engine.agrees_empty).1

/-- What calls that share a cache return, one after the other. A call that fails does not end the
run. -/
def outcomes (engine : Engine) (calls : List (String × Context)) :
    StateM Cache (List (Except MetricError (Option Float))) :=
  calls.mapM fun (name, context) => (engine.evaluate name context).run

theorem run_outcomes_cons (engine : Engine) (call : String × Context)
    (calls : List (String × Context)) (cache : Cache) :
    (engine.outcomes (call :: calls)).run cache =
      let first := (engine.evaluate call.1 call.2).run.run cache
      let others := (engine.outcomes calls).run first.2
      (first.1 :: others.1, others.2) := by
  rw [outcomes, List.mapM_cons]
  rfl

theorem Founded.run_outcomes (hfounded : engine.Founded)
    (htransforms : engine.registry.transforms.KeepFloatFree) {calls : List (String × Context)}
    (hcalls : ∀ call ∈ calls, call.2.FloatFree) {cache : Cache} (hcache : engine.Agrees cache) :
    ((engine.outcomes calls).run cache).1 = calls.map (fun call => engine.value call.1 call.2) ∧
      engine.Agrees ((engine.outcomes calls).run cache).2 := by
  induction calls generalizing cache with
  | nil => exact ⟨rfl, hcache⟩
  | cons call calls ih =>
      obtain ⟨houtcome, hafter⟩ := hfounded.computes_evaluate htransforms call.1
        (hcalls call List.mem_cons_self) cache hcache
      obtain ⟨hothers, hend⟩ := ih (fun other hmem => hcalls other (List.mem_cons_of_mem _ hmem))
        hafter
      rw [run_outcomes_cons, List.map_cons]
      dsimp only
      exact ⟨by rw [houtcome, hothers], hend⟩

/-- **The cache does not show.** In a registry that was built, exactly one valuation obeys the
definitions of the metrics, and a run of calls that share a cache gives its values call by call. -/
theorem outcomes_eq_values {factTables : List FactTable} {definitions : List Metric}
    {transforms : Transforms} {registry : Registry}
    (hbuild : Registry.build factTables definitions transforms = .ok registry)
    (htransforms : transforms.KeepFloatFree) (database : Database) (display : DisplaySettings)
    (calls : List (String × Context)) (hcalls : ∀ call ∈ calls, call.2.FloatFree) :
    let engine : Engine := ⟨registry, database, display⟩
    (∀ values, engine.ObeysDefinitions values ↔ values = engine.value) ∧
      ((engine.outcomes calls).run .empty).1 =
        calls.map fun call => engine.value call.1 call.2 := by
  intro engine
  have hfounded : engine.Founded := founded_of_build hbuild database display
  have hkeep : engine.registry.transforms.KeepFloatFree := by
    have hregistry := (build_eq_ok hbuild).1
    change registry.transforms.KeepFloatFree
    rw [hregistry]
    exact htransforms
  refine ⟨fun values => ⟨hfounded.eq_value, ?_⟩, ?_⟩
  · rintro rfl
    exact hfounded.obeysDefinitions
  · exact (hfounded.run_outcomes hkeep hcalls engine.agrees_empty).1

/-! A table with two years, and a metric that fails after its first dependency has been cached. -/

def salesTables : List FactTable :=
  [⟨"sales", ["year"], KeyMap.ofList [("revenue", ⟨"revenue", .sum, none⟩)]⟩]

def salesMetrics : List Metric := [
  .fact "revenue" "sales" "revenue",
  .derived "margin" ["revenue", "cost"] fun values _ _ => values.get? "revenue",
  .transform "last year" "revenue" "prior_period"]

def salesRows : Database :=
  KeyMap.ofList [("sales", [
    KeyMap.ofList [("year", .int 2023), ("revenue", .int 7)],
    KeyMap.ofList [("year", .int 2024), ("revenue", .int 11)]])]

def ofYear (year : Int64) : Context := Context.withFilter .empty "year" (.equals (.int year))

theorem floatFree_ofYear (year : Int64) : (ofYear year).FloatFree := by
  have hyear : (Filter.equals (.int year)).FloatFree := trivial
  exact Context.floatFree_empty.withFilter hyear "year"

def salesRegistry : Registry where
  factTables := KeyMap.ofList (salesTables.map fun table => (table.name, table))
  metrics := KeyMap.ofList (salesMetrics.map fun metric => (metric.name, metric))
  transforms := .builtin .standard

theorem build_salesRegistry :
    Registry.build salesTables salesMetrics (.builtin .standard) = .ok salesRegistry :=
  build_of_acyclic (by decide +kernel) (by decide +kernel)

/-- The run starts with a call that fails, and the transform asks for a context that was asked for
before. -/
theorem outcomes_eq_values_salesRegistry :
    let engine : Engine := ⟨salesRegistry, salesRows, .standard⟩
    let calls := [("margin", ofYear 2023), ("last year", ofYear 2024), ("revenue", .empty),
      ("revenue", ofYear 2023), ("margin", ofYear 2023)]
    (∀ values, engine.ObeysDefinitions values ↔ values = engine.value) ∧
      ((engine.outcomes calls).run .empty).1 =
        calls.map fun call => engine.value call.1 call.2 := by
  refine outcomes_eq_values build_salesRegistry (Transforms.keepFloatFree_builtin .standard)
    salesRows .standard _ ?_
  intro call hcall
  simp only [List.mem_cons, List.not_mem_nil, or_false] at hcall
  rcases hcall with rfl | rfl | rfl | rfl | rfl
  · exact floatFree_ofYear 2023
  · exact floatFree_ofYear 2024
  · exact Context.floatFree_empty
  · exact floatFree_ofYear 2023
  · exact floatFree_ofYear 2023

end Engine

end MetricLayer
