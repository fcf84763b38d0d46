import MetricLayer.Metric.Combine
import MetricLayer.Proofs.Evaluation.Memo

/-!
# What an evaluation leaves in the cache

An evaluation starts others: those of the dependencies of a derived metric, and that of the base of
a transform under the changed context. A look-up that finds its key cuts the recursion short there,
but what is in the cache was stored after everything that it started had been, so the cache is
closed under starting others at every moment. After an evaluation that succeeded it holds what can
be reached and nothing else.
-/

namespace MetricLayer

namespace Cache

def Holds (cache : Cache) (key : CacheKey) : Prop := ∃ value, cache.find? key = some value

variable {cache : Cache} {key other : CacheKey}

theorem holds_look : (cache.look key).2.Holds other ↔ cache.Holds other := by
  rw [Holds, find?_look, Holds]

theorem holds_store (value : Option Float) :
    (cache.store key value).Holds other ↔ other = key ∨ cache.Holds other := by
  rw [Holds, find?_store, Holds]
  by_cases h : other = key
  · simp [h]
  · simp [h]

end Cache

namespace Evaluation

variable {α β : Type} {inv : Cache → Prop}

/-- The computation keeps the invariant and every key in the cache, and if it succeeds, those keys
are in the cache as well. -/
def Covers (inv : Cache → Prop) (computation : Evaluation α) (keys : Set CacheKey) : Prop :=
  ∀ cache, inv cache →
    inv (computation.run.run cache).2 ∧
      (∀ key, cache.Holds key → (computation.run.run cache).2.Holds key) ∧
      ∀ value, (computation.run.run cache).1 = .ok value →
        ∀ key ∈ keys, (computation.run.run cache).2.Holds key

theorem covers_error (error : MetricError) (keys : Set CacheKey) :
    Covers inv (ofExcept (.error error) : Evaluation α) keys := by
  intro cache hinv
  rw [run_ofExcept]
  exact ⟨hinv, fun _ hkey => hkey, fun _ hvalue => by cases hvalue⟩

theorem covers_ofExcept (outcome : Except MetricError α) {keys : Set CacheKey}
    (h : ∀ key, key ∉ keys) : Covers inv (ofExcept outcome) keys := by
  intro cache hinv
  rw [run_ofExcept]
  exact ⟨hinv, fun _ hkey => hkey, fun _ _ key hkey => absurd hkey (h key)⟩

theorem Covers.mono {computation : Evaluation α} {keys fewer : Set CacheKey}
    (h : Covers inv computation keys) (hkeys : fewer ⊆ keys) : Covers inv computation fewer := by
  intro cache hinv
  obtain ⟨hafter, hgrows, hheld⟩ := h cache hinv
  exact ⟨hafter, hgrows, fun value hvalue key hkey => hheld value hvalue key (hkeys hkey)⟩

/-- What was found without the cache only decides how to go on. -/
theorem covers_ofExcept_bind {outcome : Except MetricError α} {next : α → Evaluation β}
    {keys : Set CacheKey} (h : ∀ value, outcome = .ok value → Covers inv (next value) keys) :
    Covers inv (ofExcept outcome >>= next) keys := by
  cases outcome with
  | error error => exact covers_error error keys
  | ok value => exact h value rfl

theorem Covers.bind {first : Evaluation α} {next : α → Evaluation β} {keys more : Set CacheKey}
    (hfirst : Covers inv first keys) (hnext : ∀ value, Covers inv (next value) more) :
    Covers inv (first >>= next) (keys ∪ more) := by
  intro cache hinv
  obtain ⟨hafter, hgrows, hheld⟩ := hfirst cache hinv
  rw [run_bind]
  rcases hrun : first.run.run cache with ⟨error | value, after⟩
  · rw [hrun] at hafter hgrows
    exact ⟨hafter, hgrows, fun _ hvalue => by cases hvalue⟩
  · rw [hrun] at hafter hgrows hheld
    obtain ⟨hend, hgrows', hheld'⟩ := hnext value after hafter
    refine ⟨hend, fun key hkey => hgrows' key (hgrows key hkey), ?_⟩
    rintro result hresult key (hkey | hkey)
    · exact hgrows' key (hheld value rfl key hkey)
    · exact hheld' result hresult key hkey

theorem covers_pure (value : α) : Covers inv (pure value) ∅ :=
  covers_ofExcept (.ok value) fun _ hkey => hkey

theorem covers_mapM {evaluate : α → Evaluation β} {items : List α} {keys : α → Set CacheKey}
    (h : ∀ item ∈ items, Covers inv (evaluate item) (keys item)) :
    Covers inv (items.mapM evaluate) {key | ∃ item ∈ items, key ∈ keys item} := by
  induction items with
  | nil => exact (covers_pure []).mono fun key ⟨_, hitem, _⟩ => by cases hitem
  | cons head rest ih =>
      have hrest := ih fun item hitem => h item (List.mem_cons_of_mem _ hitem)
      rw [List.mapM_cons]
      refine ((h head List.mem_cons_self).bind fun value =>
        hrest.bind fun others => covers_pure (value :: others)).mono ?_
      rintro key ⟨item, hitem, hkey⟩
      rcases List.mem_cons.mp hitem with rfl | hitem
      · exact .inl hkey
      · exact .inr (.inl ⟨item, hitem, hkey⟩)

/-- A value is stored when everything that its computation covers is in the cache. -/
theorem covers_memoised {key : CacheKey} {compute : Evaluation (Option Float)}
    {keys : Set CacheKey} (hcompute : Covers inv compute keys)
    (hlook : ∀ cache, inv cache → inv (cache.look key).2)
    (hstore : ∀ cache value, inv cache → (∀ key ∈ keys, cache.Holds key) →
      inv (cache.store key value)) :
    Covers inv (Engine.memoised key compute) {key} := by
  intro cache hinv
  rw [run_memoised]
  cases hfind : cache.find? key with
  | some value =>
      refine ⟨hlook cache hinv, fun other hother => Cache.holds_look.mpr hother, ?_⟩
      rintro _ _ other rfl
      exact Cache.holds_look.mpr ⟨value, hfind⟩
  | none =>
      obtain ⟨hafter, hgrows, hheld⟩ := hcompute _ (hlook cache hinv)
      have hkept : ∀ other, cache.Holds other →
          (compute.run.run (cache.look key).2).2.Holds other :=
        fun other hother => hgrows other (Cache.holds_look.mpr hother)
      rcases hrun : compute.run.run (cache.look key).2 with ⟨error | value, after⟩
      · rw [hrun] at hafter hkept
        exact ⟨hafter, hkept, fun _ hvalue => by cases hvalue⟩
      · rw [hrun] at hafter hkept hheld
        refine ⟨hstore after value hafter (hheld value rfl),
          fun other hother => (Cache.holds_store value).mpr (.inr (hkept other hother)), ?_⟩
        rintro _ _ other rfl
        exact (Cache.holds_store value).mpr (.inl rfl)

end Evaluation

namespace Engine

open Evaluation Registry Relation

/-- The evaluation of one metric under a context starts that of another. -/
inductive Starts (engine : Engine) : String × Context → String × Context → Prop where
  | dependency {name other : String} {context : Context} {metric : Metric}
      {derived : DerivedMetric} (hmetric : engine.registry.metrics.get? name = some metric)
      (hkind : metric.kind = .derived derived) (hother : other ∈ derived.dependsOn) :
      Starts engine (name, context) (other, context)
  | base {name : String} {context : Context} {metric : Metric} {transform : TransformMetric}
      {change : Transform} (hmetric : engine.registry.metrics.get? name = some metric)
      (hkind : metric.kind = .transform transform)
      (hchange : engine.registry.transforms.get? transform.transform = some change) :
      Starts engine (name, context) (transform.base, change context)

/-- One evaluation starts the other, directly or through others, or is the other. -/
abbrev Reaches (engine : Engine) : String × Context → String × Context → Prop :=
  ReflTransGen engine.Starts

variable {engine : Engine} {name : String} {context : Context}

theorem starts_iff {metric : Metric} (hmetric : engine.registry.metrics.get? name = some metric)
    {next : String × Context} :
    engine.Starts (name, context) next ↔
      (∃ derived other, metric.kind = .derived derived ∧ other ∈ derived.dependsOn ∧
          next = (other, context)) ∨
        ∃ transform change, metric.kind = .transform transform ∧
          engine.registry.transforms.get? transform.transform = some change ∧
          next = (transform.base, change context) := by
  constructor
  · intro h
    cases h with
    | dependency hfound hkind hother =>
        obtain rfl := Option.some.inj (hmetric.symm.trans hfound)
        exact .inl ⟨_, _, hkind, hother, rfl⟩
    | base hfound hkind hchange =>
        obtain rfl := Option.some.inj (hmetric.symm.trans hfound)
        exact .inr ⟨_, _, hkind, hchange, rfl⟩
  · rintro (⟨derived, other, hkind, hother, rfl⟩ | ⟨transform, change, hkind, hchange, rfl⟩)
    · exact .dependency hmetric hkind hother
    · exact .base hmetric hkind hchange

theorem Starts.floatFree {start next : String × Context} (h : engine.Starts start next)
    (htransforms : engine.registry.transforms.KeepFloatFree) (hstart : start.2.FloatFree) :
    next.2.FloatFree := by
  cases h with
  | dependency => exact hstart
  | base _ _ hchange => exact htransforms _ _ hchange _ hstart

theorem floatFree_of_reaches {start next : String × Context} (h : engine.Reaches start next)
    (htransforms : engine.registry.transforms.KeepFloatFree) (hstart : start.2.FloatFree) :
    next.2.FloatFree := by
  induction h with
  | refl => exact hstart
  | tail _ hstep ih => exact hstep.floatFree htransforms ih

def startedKeys (engine : Engine) (call : String × Context) : Set CacheKey :=
  {key | ∃ next, engine.Starts call next ∧ key = .of next.1 next.2}

/-- A step covers what it starts if each evaluation covers its own key. -/
theorem covers_definitionStep {inv : Cache → Prop}
    {evaluate : String → Context → Evaluation (Option Float)}
    (h : ∀ next, engine.Starts (name, context) next →
      Covers inv (evaluate next.1 next.2) {.of next.1 next.2}) :
    Covers inv (engine.definitionStep evaluate name context)
      (engine.startedKeys (name, context)) := by
  refine covers_ofExcept_bind fun metric hmetric => ?_
  have hfound := metric_eq_ok hmetric
  cases hkind : metric.kind with
  | fact fact =>
      refine covers_ofExcept _ ?_
      rintro key ⟨next, hnext, _⟩
      rcases (starts_iff hfound).mp hnext with ⟨_, _, hother, _⟩ | ⟨_, _, hother, _⟩ <;>
        cases hkind.symm.trans hother
  | expression expression =>
      refine covers_ofExcept _ ?_
      rintro key ⟨next, hnext, _⟩
      rcases (starts_iff hfound).mp hnext with ⟨_, _, hother, _⟩ | ⟨_, _, hother, _⟩ <;>
        cases hkind.symm.trans hother
  | derived derived =>
      have hitem : ∀ other ∈ derived.dependsOn, Covers inv (evaluate other context >>= fun value =>
          pure (other, value)) {.of other context} := by
        intro other hother
        refine ((h _ (.dependency hfound hkind hother)).bind fun value =>
          covers_pure (other, value)).mono ?_
        exact fun key hkey => .inl hkey
      refine ((covers_mapM hitem).bind fun entries => covers_pure _).mono ?_
      rintro key ⟨next, hnext, rfl⟩
      rcases (starts_iff hfound).mp hnext with ⟨_, other, hsame, hother, rfl⟩ | ⟨_, _, hother, _⟩
      · cases hkind.symm.trans hsame
        exact .inl ⟨other, hother, rfl⟩
      · cases hkind.symm.trans hother
  | transform transform =>
      refine covers_ofExcept_bind fun changed hchanged => ?_
      rw [transformed] at hchanged
      split at hchanged
      · rename_i change hchange
        obtain rfl := Except.ok.inj hchanged
        refine (h _ (.base hfound hkind hchange)).mono ?_
        rintro key ⟨next, hnext, rfl⟩
        rcases (starts_iff hfound).mp hnext with ⟨_, _, hother, _⟩ | ⟨_, other, hsame, hother, rfl⟩
        · cases hkind.symm.trans hother
        · cases hkind.symm.trans hsame
          cases hchange.symm.trans hother
          rfl
      · cases hchanged

/-- The cache holds keys of what can be reached only, and with a key the keys of everything that its
evaluation starts. -/
structure Tracks (engine : Engine) (start : String × Context) (cache : Cache) : Prop where
  reached : ∀ key, cache.Holds key → ∃ call, engine.Reaches start call ∧ key = .of call.1 call.2
  closed : ∀ call : String × Context, call.2.FloatFree → cache.Holds (.of call.1 call.2) →
    ∀ next, engine.Starts call next → cache.Holds (.of next.1 next.2)

theorem tracks_empty (engine : Engine) (start : String × Context) : engine.Tracks start .empty where
  reached := fun _ ⟨_, hfound⟩ => by cases hfound
  closed := fun _ _ ⟨_, hfound⟩ => by cases hfound

variable {start : String × Context} {cache : Cache}

theorem Tracks.look (h : engine.Tracks start cache) (key : CacheKey) :
    engine.Tracks start (cache.look key).2 where
  reached := fun other hother => h.reached other (Cache.holds_look.mp hother)
  closed := fun call hcall hheld next hnext =>
    Cache.holds_look.mpr (h.closed call hcall (Cache.holds_look.mp hheld) next hnext)

theorem Tracks.store (h : engine.Tracks start cache) (hreach : engine.Reaches start (name, context))
    (hcontext : context.FloatFree)
    (hstarted : ∀ key ∈ engine.startedKeys (name, context), cache.Holds key)
    (value : Option Float) : engine.Tracks start (cache.store (.of name context) value) where
  reached := by
    intro key hkey
    rcases (Cache.holds_store value).mp hkey with rfl | hheld
    · exact ⟨_, hreach, rfl⟩
    · exact h.reached key hheld
  closed := by
    rintro ⟨other, held⟩ hheld hkey next hnext
    refine (Cache.holds_store value).mpr (.inr ?_)
    rcases (Cache.holds_store value).mp hkey with hsame | hkey
    · obtain ⟨rfl, rfl⟩ := CacheKey.of_inj hheld hcontext hsame
      exact hstarted _ ⟨next, hnext, rfl⟩
    · exact h.closed _ hheld hkey next hnext

/-- An evaluation that was reached keeps track. A bound that is met makes it fail. -/
theorem covers_evaluateWithin (htransforms : engine.registry.transforms.KeepFloatFree)
    (depth : Nat) (hreach : engine.Reaches start (name, context))
    (hcontext : context.FloatFree) :
    Covers (engine.Tracks start) (engine.evaluateWithin depth name context)
      {.of name context} := by
  induction depth generalizing name context with
  | zero => exact covers_error _ _
  | succ depth ih =>
      rw [evaluateWithin_succ]
      have hstep : Covers (engine.Tracks start)
          (engine.definitionStep (engine.evaluateWithin depth) name context)
          (engine.startedKeys (name, context)) :=
        covers_definitionStep fun next hnext =>
          ih (hreach.tail hnext) (hnext.floatFree htransforms hcontext)
      exact covers_memoised hstep (fun cache htracks => htracks.look _)
        fun cache value htracks hstarted => htracks.store hreach hcontext hstarted value

/-- Everything that an evaluation reaches is in a cache that tracks it and holds its own key. -/
theorem Tracks.holds_of_reaches (h : engine.Tracks start cache)
    (htransforms : engine.registry.transforms.KeepFloatFree) (hstart : start.2.FloatFree)
    (hheld : cache.Holds (.of start.1 start.2)) {call : String × Context}
    (hreach : engine.Reaches start call) : cache.Holds (.of call.1 call.2) := by
  induction hreach with
  | refl => exact hheld
  | tail hbefore hstep ih =>
      exact h.closed _ (floatFree_of_reaches hbefore htransforms hstart) ih _ hstep

/-- **An evaluation caches what it reaches.** After an evaluation that succeeded on an empty cache,
the keys in the cache are those of the metrics and contexts that it reaches, and the value under
each is that of an evaluation of its own. -/
theorem cached_iff_reaches {factTables : List FactTable} {definitions : List Metric}
    {keys : TimeKeys} {registry : Registry}
    (hbuild : Registry.build factTables definitions (.builtin keys) = .ok registry)
    (database : Database) (display : DisplaySettings) {name : String} {context : Context}
    (hcontext : context.FloatFree) {value : Option Float} {cache : Cache}
    (hrun : (Engine.evaluate ⟨registry, database, display⟩ name context).run.run .empty =
      (.ok value, cache)) :
    let engine : Engine := ⟨registry, database, display⟩
    (∀ key, (∃ stored, cache.find? key = some stored) ↔
        ∃ metric reached, engine.Reaches (name, context) (metric, reached) ∧
          key = .of metric reached) ∧
      ∀ metric reached, engine.Reaches (name, context) (metric, reached) →
        ∃ stored, cache.find? (.of metric reached) = some stored ∧
          engine.evaluateMetric metric reached = .ok stored := by
  intro engine
  have hfounded : engine.Founded := founded_of_build hbuild database display
  have htransforms : engine.registry.transforms.KeepFloatFree := by
    change registry.transforms.KeepFloatFree
    rw [(build_eq_ok hbuild).1]
    exact Transforms.keepFloatFree_builtin keys
  have hcovers : Covers (engine.Tracks (name, context)) (engine.evaluate name context)
      {.of name context} := covers_evaluateWithin htransforms engine.maxDepth .refl hcontext
  obtain ⟨htracks, _, hheld⟩ := hcovers .empty (engine.tracks_empty _)
  have hagrees := (hfounded.computes_evaluate htransforms name hcontext .empty
    engine.agrees_empty).2
  rw [hrun] at htracks hheld hagrees
  have hholds : ∀ call, engine.Reaches (name, context) call → cache.Holds (.of call.1 call.2) :=
    fun call hreach => htracks.holds_of_reaches htransforms hcontext (hheld value rfl _ rfl) hreach
  refine ⟨fun key => ⟨fun hkey => ?_, ?_⟩, fun metric reached hreach => ?_⟩
  · obtain ⟨call, hreach, hcall⟩ := htracks.reached key hkey
    exact ⟨call.1, call.2, hreach, hcall⟩
  · rintro ⟨metric, reached, hreach, rfl⟩
    exact hholds _ hreach
  · obtain ⟨stored, hstored⟩ := hholds _ hreach
    have hfree : reached.FloatFree := floatFree_of_reaches hreach htransforms hcontext
    refine ⟨stored, hstored, ?_⟩
    rw [hfounded.evaluateMetric_eq_value htransforms metric hfree]
    exact hagrees metric reached stored hfree hstored

/-! Two ways lead to last year's revenue: a year without a month is its own year to date. -/

def trendMetrics : List Metric := [
  .fact "revenue" "sales" "revenue",
  .transform "last year" "revenue" "prior_period",
  .transform "last year so far" "last year" "ytd",
  .derived "growth" ["revenue", "last year", "last year so far"] fun values _ _ =>
    (Combine.growth "revenue" "last year so far").apply values]

def trendRegistry : Registry where
  factTables := KeyMap.ofList (salesTables.map fun table => (table.name, table))
  metrics := KeyMap.ofList (trendMetrics.map fun metric => (metric.name, metric))
  transforms := .builtin .standard

theorem build_trendRegistry :
    Registry.build salesTables trendMetrics (.builtin .standard) = .ok trendRegistry :=
  build_of_acyclic (by decide +kernel) (by decide +kernel)

theorem cached_iff_reaches_growth :
    let engine : Engine := ⟨trendRegistry, salesRows, .standard⟩
    ∃ value cache, (engine.evaluate "growth" (ofYear 2024)).run.run .empty = (.ok value, cache) ∧
      cache.size = 5 ∧
      (∀ key, (∃ stored, cache.find? key = some stored) ↔
          ∃ metric reached, engine.Reaches ("growth", ofYear 2024) (metric, reached) ∧
            key = .of metric reached) ∧
        ∀ metric reached, engine.Reaches ("growth", ofYear 2024) (metric, reached) →
          ∃ stored, cache.find? (.of metric reached) = some stored ∧
            engine.evaluateMetric metric reached = .ok stored := by
  intro engine
  have houtcome : ((engine.evaluate "growth" (ofYear 2024)).run.run .empty).1.isOk = true := by
    decide +kernel
  have hsize : ((engine.evaluate "growth" (ofYear 2024)).run.run .empty).2.size = 5 := by
    decide +kernel
  rcases hrun : (engine.evaluate "growth" (ofYear 2024)).run.run .empty with
    ⟨error | value, cache⟩
  · rw [hrun] at houtcome
    cases houtcome
  · rw [hrun] at hsize
    refine ⟨value, cache, rfl, hsize, ?_⟩
    exact cached_iff_reaches build_trendRegistry salesRows .standard (floatFree_ofYear 2024) hrun

end Engine

end MetricLayer
