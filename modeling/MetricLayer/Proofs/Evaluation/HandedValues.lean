import MetricLayer.Metric.Combine
import MetricLayer.Proofs.Evaluation.Nesting
import MetricLayer.Proofs.Metric.Dependencies

/-!
# What a combinator is handed

A derived metric evaluates its dependencies one after the other, over one cache. An entry of a cache
stays as it is in every evaluation, and an evaluation that succeeds leaves its value in the cache.
So the calls for one name all return the same value, and none of them is lost when the values are
put in under their names.
-/

namespace MetricLayer

namespace Evaluation

variable {α β : Type}

theorem exists_of_run_bind_ok {first : Evaluation α} {next : α → Evaluation β} {cache after : Cache}
    {result : β} (h : (first >>= next).run.run cache = (.ok result, after)) :
    ∃ value middle, first.run.run cache = (.ok value, middle) ∧
      (next value).run.run middle = (.ok result, after) := by
  rw [run_bind] at h
  rcases hfirst : first.run.run cache with ⟨error | value, middle⟩
  · rw [hfirst] at h
    cases h
  · rw [hfirst] at h
    exact ⟨value, middle, rfl, h⟩

/-- A value that was not found was computed, and is stored. -/
theorem exists_of_run_memoised_ok {key : CacheKey} {compute : Evaluation (Option Float)}
    {cache after : Cache} {value : Option Float} (hmiss : cache.find? key = none)
    (h : (Engine.memoised key compute).run.run cache = (.ok value, after)) :
    ∃ last, compute.run.run (cache.look key).2 = (.ok value, last) ∧
      after = last.store key value := by
  rw [run_memoised, hmiss] at h
  rcases hcompute : compute.run.run (cache.look key).2 with ⟨error | computed, last⟩
  · rw [hcompute] at h
    cases h
  · rw [hcompute] at h
    cases h
    exact ⟨last, rfl, rfl⟩

theorem mapM_pairs (evaluate : α → Evaluation β) (items : List α) :
    (items.mapM fun item => do
      let value ← evaluate item
      return (item, value)) = (do
      let values ← items.mapM evaluate
      return items.zip values) := by
  induction items with
  | nil => simp
  | cons head rest ih =>
      rw [List.mapM_cons, List.mapM_cons, ih]
      simp only [bind_assoc, pure_bind, List.zip_cons_cons]

end Evaluation

namespace Engine

open Evaluation Registry

variable {engine : Engine} {name : String} {context : Context} {cache after : Cache}

/-- The entry is there before and after, whether the computation fails or not. -/
abbrev Keeps {α : Type} (key : CacheKey) (value : Option Float) (computation : Evaluation α) :
    Prop :=
  Ensures (fun cache => cache.find? key = some value) computation (Returns fun _ => True)

section Keeps

variable {key : CacheKey} {value : Option Float}

theorem keeps_ofExcept {α : Type} (outcome : Except MetricError α) :
    Keeps key value (Evaluation.ofExcept outcome) :=
  ensures_ofExcept fun _ _ => trivial

theorem keeps_definitionStep {evaluate : Calls}
    (h : ∀ other context, Keeps key value (evaluate other context)) :
    Keeps key value (engine.definitionStep evaluate name context) := by
  refine ensures_bind_returns (keeps_ofExcept _) fun metric _ => ?_
  cases metric.kind with
  | fact fact => exact keeps_ofExcept _
  | expression expression => exact keeps_ofExcept _
  | derived derived =>
      have hentry : ∀ other ∈ derived.dependsOn, Keeps key value (do
          let value ← evaluate other context
          return (other, value)) :=
        fun other _ => ensures_bind_returns (h other context) fun _ _ =>
          ensures_pure_returns trivial
      exact ensures_bind_returns (ensures_mapM_returns hentry) fun _ _ =>
        ensures_pure_returns trivial
  | transform transform =>
      exact ensures_bind_returns (keeps_ofExcept _) fun changed _ => h transform.base changed

/-- A key that is found is not stored again. -/
theorem keeps_memoised {other : CacheKey} {compute : Evaluation (Option Float)}
    (hcompute : Keeps key value compute) : Keeps key value (memoised other compute) := by
  -- The invariant alone does not survive a store under its own key: there the look-up comes first.
  by_cases hkey : other = key
  · subst hkey
    intro cache hfound
    rw [run_memoised, hfound]
    exact ⟨fun _ _ => trivial, (Cache.find?_look ..).trans hfound⟩
  · refine ensures_memoised hcompute (fun _ _ _ _ _ _ => trivial) (fun cache hfound => ?_)
      fun cache stored hfound _ => ?_
    · rw [Cache.find?_look, hfound]
    · rw [Cache.find?_store, if_neg (Ne.symm hkey), hfound]

theorem keeps_evaluateWithin (depth : Nat) :
    Keeps key value (engine.evaluateWithin depth name context) := by
  induction depth generalizing name context with
  | zero => exact keeps_ofExcept (.error _)
  | succ depth ih =>
      rw [evaluateWithin_succ]
      exact keeps_memoised (keeps_definitionStep fun _ _ => ih)

theorem keeps_calls (engine : Engine) (context : Context) (names : List String) :
    Keeps key value (names.mapM fun name => engine.evaluate name context) :=
  (ensures_mapM_returns fun _ _ => keeps_evaluateWithin _).imp fun _ _ _ _ => trivial

end Keeps

theorem find?_of_evaluate_ok {value : Option Float}
    (h : (engine.evaluate name context).run.run cache = (.ok value, after)) :
    after.find? (.of name context) = some value := by
  rw [evaluate, maxDepth, evaluateWithin_succ] at h
  cases hfound : cache.find? (.of name context) with
  | some held =>
      rw [run_memoised, hfound] at h
      cases h
      rw [Cache.find?_look, hfound]
  | none =>
      obtain ⟨last, -, rfl⟩ := exists_of_run_memoised_ok hfound h
      rw [Cache.find?_store, if_pos rfl]

/-- Each of the calls returned what the cache holds after the last one. -/
theorem forall₂_find?_of_calls {names : List String} {returned : List (Option Float)}
    (h : (names.mapM fun name => engine.evaluate name context).run.run cache =
      (.ok returned, after)) :
    List.Forall₂ (fun name value => after.find? (.of name context) = some value) names
      returned := by
  induction names generalizing cache returned with
  | nil =>
      cases h
      exact .nil
  | cons head rest ih =>
      rw [List.mapM_cons] at h
      obtain ⟨value, middle, hhead, h⟩ := exists_of_run_bind_ok h
      obtain ⟨others, last, hrest, h⟩ := exists_of_run_bind_ok h
      cases h
      refine .cons ?_ (ih hrest)
      -- The other calls keep what the first one left.
      have hlast := (keeps_calls engine context rest middle (find?_of_evaluate_ok hhead)).2
      rwa [hrest] at hlast

/-- A derived metric calls the evaluation for its dependencies in turn and combines the values. -/
theorem Founded.evaluate_derived (h : engine.Founded) {metric : Metric} {derived : DerivedMetric}
    (hmetric : engine.registry.metrics.get? name = some metric)
    (hkind : metric.kind = .derived derived) :
    engine.evaluate name context = memoised (.of name context) (do
      let returned ← derived.dependsOn.mapM fun dependency => engine.evaluate dependency context
      return derived.combinator (.ofList (derived.dependsOn.zip returned)) engine.database
        context) := by
  have hfound : engine.metric name = .ok metric := by rw [Engine.metric, hmetric]
  conv_lhs => rw [← h.call_evaluate]
  rw [call, definitionStep, hfound, Evaluation.ofExcept, pure_bind, hkind]
  dsimp only
  rw [mapM_pairs, bind_assoc]
  simp only [pure_bind]

/-- Calls for one name return one value, so every returned value is held under its name. -/
theorem handed_of_calls {names : List String} {returned : List (Option Float)}
    (h : (names.mapM fun name => engine.evaluate name context).run.run cache =
      (.ok returned, after)) :
    (DependencyValues.ofList (names.zip returned)).names = names.eraseDups ∧
      ∀ entry, entry ∈ (DependencyValues.ofList (names.zip returned)).entries ↔
        entry ∈ names.zip returned := by
  obtain ⟨hlength, hfound⟩ := List.forall₂_iff_zip.mp (forall₂_find?_of_calls h)
  constructor
  · rw [DependencyValues.names_ofList]
    exact congrArg List.eraseDups (List.map_fst_zip (Nat.le_of_eq hlength))
  · refine DependencyValues.mem_entries_ofList_iff_of_settled ?_
    rintro ⟨name, value⟩ hvalue ⟨_, other⟩ hother rfl
    exact Option.some.inj ((hfound hvalue).symm.trans (hfound hother))

/-- **A combinator is handed the distinct dependencies in order.** A run of inserts leaves every
name once, in the order of the first inserts, with the value of the last one. The value of a derived
metric was found in the cache, or the calls for its dependencies have all returned and the
combinator was given their distinct names in the order in which they first occur, each with the
value that every call for it returned. -/
theorem handedValues_insertionOrdered {factTables : List FactTable} {definitions : List Metric}
    {transforms : Transforms} {registry : Registry}
    (hbuild : Registry.build factTables definitions transforms = .ok registry)
    (database : Database) (display : DisplaySettings) :
    let engine : Engine := ⟨registry, database, display⟩
    (∀ inserts, DependencyValues.HoldsInserts inserts (.ofList inserts)) ∧
      ∀ name metric derived context cache result after,
        registry.metrics.get? name = some metric → metric.kind = .derived derived →
        (engine.evaluate name context).run.run cache = (.ok result, after) →
        cache.find? (.of name context) = some result ∨
          ∃ returned last,
            (derived.dependsOn.mapM fun dependency =>
                engine.evaluate dependency context).run.run (cache.look (.of name context)).2 =
              (.ok returned, last) ∧
            let handed := DependencyValues.ofList (derived.dependsOn.zip returned)
            result = derived.combinator handed database context ∧
              handed.names = derived.dependsOn.eraseDups ∧
              ∀ entry, entry ∈ handed.entries ↔ entry ∈ derived.dependsOn.zip returned := by
  intro engine
  have hfounded : engine.Founded := founded_of_build hbuild database display
  refine ⟨DependencyValues.holdsInserts_ofList, ?_⟩
  intro name metric derived context cache result after hmetric hkind hrun
  rw [hfounded.evaluate_derived hmetric hkind] at hrun
  cases hfound : cache.find? (.of name context) with
  | some held =>
      rw [run_memoised, hfound] at hrun
      cases hrun
      exact .inl rfl
  | none =>
      obtain ⟨last, hcompute, -⟩ := exists_of_run_memoised_ok hfound hrun
      obtain ⟨returned, _, hcalls, hresult⟩ := exists_of_run_bind_ok hcompute
      cases hresult
      exact .inr ⟨returned, last, hcalls, rfl, handed_of_calls hcalls⟩

/-! A metric that lists one of its two dependencies twice. -/

def repeatedMetrics : List Metric := [
  .fact "revenue" "sales" "revenue",
  .transform "last year" "revenue" "prior_period",
  .derived "two years" ["revenue", "last year", "revenue"] fun values _ _ =>
    Combine.sum.apply values]

def repeatedRegistry : Registry where
  factTables := KeyMap.ofList (salesTables.map fun table => (table.name, table))
  metrics := KeyMap.ofList (repeatedMetrics.map fun metric => (metric.name, metric))
  transforms := .builtin .standard

theorem build_repeatedRegistry :
    Registry.build salesTables repeatedMetrics (.builtin .standard) = .ok repeatedRegistry :=
  build_of_acyclic (by decide +kernel) (by decide +kernel)

/-- The revenue of 2024 is 11 and that of the year before 7: the sum has each once. -/
theorem handedValues_insertionOrdered_twoYears :
    let engine : Engine := ⟨repeatedRegistry, salesRows, .standard⟩
    let names := ["revenue", "last year", "revenue"]
    ∃ after, (engine.evaluate "two years" (ofYear 2024)).run.run .empty = (.ok (some 18.0), after) ∧
      ∃ returned last,
        (names.mapM fun dependency =>
            engine.evaluate dependency (ofYear 2024)).run.run
              (Cache.empty.look (.of "two years" (ofYear 2024))).2 = (.ok returned, last) ∧
        let handed := DependencyValues.ofList (names.zip returned)
        some 18.0 = Combine.sum.apply handed ∧ handed.names = ["revenue", "last year"] ∧
          ∀ entry, entry ∈ handed.entries ↔ entry ∈ names.zip returned := by
  intro engine names
  have houtcome : ((engine.evaluate "two years" (ofYear 2024)).run.run .empty).1.toOption =
      some (some 18.0) := by decide +kernel
  rcases hrun : (engine.evaluate "two years" (ofYear 2024)).run.run .empty with
    ⟨error | value, after⟩
  · rw [hrun] at houtcome
    cases houtcome
  · rw [hrun] at houtcome
    obtain rfl : value = some 18.0 := Option.some.inj houtcome
    refine ⟨after, rfl, ?_⟩
    have hhanded := (handedValues_insertionOrdered build_repeatedRegistry salesRows .standard).2
      "two years" _ _ (ofYear 2024) .empty _ after rfl rfl hrun
    exact hhanded.resolve_left nofun

end Engine

end MetricLayer
