import MetricLayer.Evaluation
import MetricLayer.Proofs.Lists.Correspondence

/-!
# Computations over a cache

`Ensures` is what a computation promises: started with a cache that meets an invariant, it ends with
an outcome that meets a condition and leaves a cache that meets the invariant, whether it fails or
not. `Computes` fixes the outcome. Both follow the structure of a computation, and `memoised` says
what look-up and storing ask of the invariant.
-/

namespace MetricLayer.Evaluation

variable {α β σ : Type} {inv : Cache → Prop}

theorem run_bind (first : ExceptT MetricError (StateM σ) α)
    (next : α → ExceptT MetricError (StateM σ) β) (state : σ) :
    (first >>= next).run.run state = match first.run.run state with
      | (.ok value, after) => (next value).run.run after
      | (.error error, after) => (.error error, after) := by
  rw [ExceptT.run_bind, StateT.run_bind]
  rcases first.run.run state with ⟨_ | _, _⟩ <;> rfl

@[simp]
theorem run_ofExcept (outcome : Except MetricError α) (cache : Cache) :
    (ofExcept outcome).run.run cache = (outcome, cache) := by
  cases outcome <;> rfl

theorem run_memoised (key : CacheKey) (compute : Evaluation (Option Float)) (cache : Cache) :
    (Engine.memoised key compute).run.run cache = match cache.find? key with
      | some value => (.ok value, (cache.look key).2)
      | none => match compute.run.run (cache.look key).2 with
          | (.ok value, after) => (.ok value, after.store key value)
          | (.error error, after) => (.error error, after) := by
  have hlook : (modifyGet (·.look key) : Evaluation (Option (Option Float))).run.run cache =
      (.ok (cache.look key).1, (cache.look key).2) := rfl
  rw [Engine.memoised, run_bind, hlook]
  cases hfound : cache.find? key with
  | some value =>
      simp only [Cache.look, hfound]
      rfl
  | none =>
      simp only [Cache.look, hfound, run_bind]
      rcases compute.run.run _ with ⟨_ | _, _⟩ <;> rfl

def Ensures (inv : Cache → Prop) (computation : Evaluation α)
    (good : Except MetricError α → Prop) : Prop :=
  ∀ cache, inv cache →
    good (computation.run.run cache).1 ∧ inv (computation.run.run cache).2

/-- The computation ends with that outcome, whatever the cache holds within the invariant. -/
def Computes (inv : Cache → Prop) (computation : Evaluation α)
    (outcome : Except MetricError α) : Prop :=
  Ensures inv computation (· = outcome)

theorem ensures_ofExcept {good : Except MetricError α → Prop} {outcome : Except MetricError α}
    (h : good outcome) : Ensures inv (ofExcept outcome) good := by
  intro cache hinv
  rw [run_ofExcept]
  exact ⟨h, hinv⟩

theorem Ensures.imp {computation : Evaluation α} {good better : Except MetricError α → Prop}
    (h : Ensures inv computation good) (himp : ∀ outcome, good outcome → better outcome) :
    Ensures inv computation better :=
  fun cache hinv => ⟨himp _ (h cache hinv).1, (h cache hinv).2⟩

theorem Ensures.bind {first : Evaluation α} {next : α → Evaluation β}
    {good : Except MetricError α → Prop} {better : Except MetricError β → Prop}
    (hfirst : Ensures inv first good)
    (hnext : ∀ value, good (.ok value) → Ensures inv (next value) better)
    (herror : ∀ error, good (.error error) → better (.error error)) :
    Ensures inv (first >>= next) better := by
  intro cache hinv
  obtain ⟨hgood, hafter⟩ := hfirst cache hinv
  rw [run_bind]
  rcases hrun : first.run.run cache with ⟨error | value, after⟩
  · rw [hrun] at hgood hafter
    exact ⟨herror error hgood, hafter⟩
  · rw [hrun] at hgood hafter
    exact hnext value hgood after hafter

theorem computes_ofExcept (outcome : Except MetricError α) :
    Computes inv (ofExcept outcome) outcome :=
  ensures_ofExcept rfl

theorem computes_pure (value : α) : Computes inv (pure value) (.ok value) :=
  computes_ofExcept (.ok value)

theorem Computes.bind {first : Evaluation α} {next : α → Evaluation β}
    {outcome : Except MetricError α} {rest : α → Except MetricError β}
    (hfirst : Computes inv first outcome)
    (hnext : ∀ value, outcome = .ok value → Computes inv (next value) (rest value)) :
    Computes inv (first >>= next) (outcome >>= rest) := by
  refine Ensures.bind hfirst (fun value hvalue => ?_) fun error herror => ?_
  · obtain rfl := hvalue
    exact hnext value rfl
  · obtain rfl := herror
    rfl

theorem computes_mapM {evaluate : α → Evaluation β} {values : α → Except MetricError β}
    {items : List α} (h : ∀ item ∈ items, Computes inv (evaluate item) (values item)) :
    Computes inv (items.mapM evaluate) (items.mapM values) := by
  induction items with
  | nil => exact computes_pure []
  | cons head rest ih =>
      rw [List.mapM_cons, List.mapM_cons]
      refine (h head List.mem_cons_self).bind fun value _ => ?_
      refine (ih fun item hmem => h item (List.mem_cons_of_mem _ hmem)).bind fun others _ => ?_
      exact computes_pure (value :: others)

/-- What an invariant has to allow for look-ups and stored values to keep it. -/
theorem ensures_memoised {key : CacheKey} {compute : Evaluation (Option Float)}
    {good : Except MetricError (Option Float) → Prop} (hcompute : Ensures inv compute good)
    (hfound : ∀ cache value, inv cache → cache.find? key = some value → good (.ok value))
    (hlook : ∀ cache, inv cache → inv (cache.look key).2)
    (hstore : ∀ cache value, inv cache → good (.ok value) → inv (cache.store key value)) :
    Ensures inv (Engine.memoised key compute) good := by
  intro cache hinv
  rw [run_memoised]
  cases hfind : cache.find? key with
  | some value => exact ⟨hfound cache value hinv hfind, hlook cache hinv⟩
  | none =>
      obtain ⟨hgood, hafter⟩ := hcompute _ (hlook cache hinv)
      rcases hrun : compute.run.run (cache.look key).2 with ⟨error | value, after⟩
      · rw [hrun] at hgood hafter
        exact ⟨hgood, hafter⟩
      · rw [hrun] at hgood hafter
        exact ⟨hgood, hstore after value hafter hgood⟩

/-- If there is a value, it is one of those. -/
def Returns (good : α → Prop) (outcome : Except MetricError α) : Prop :=
  ∀ value, outcome = .ok value → good value

theorem returns_error {good : α → Prop} (error : MetricError) : Returns good (.error error) := by
  intro value hvalue
  cases hvalue

theorem returns_ok {good : α → Prop} {value : α} (h : good value) : Returns good (.ok value) := by
  intro other hother
  obtain rfl := Except.ok.inj hother
  exact h

theorem ensures_any (computation : Evaluation α) :
    Ensures (fun _ => True) computation (Returns fun _ => True) :=
  fun _ _ => ⟨fun _ _ => trivial, trivial⟩

theorem ensures_pure_returns {good : α → Prop} {value : α} (h : good value) :
    Ensures inv (pure value) (Returns good) :=
  ensures_ofExcept (returns_ok h)

theorem ensures_bind_returns {first : Evaluation α} {next : α → Evaluation β} {good : α → Prop}
    {better : β → Prop} (hfirst : Ensures inv first (Returns good))
    (hnext : ∀ value, good value → Ensures inv (next value) (Returns better)) :
    Ensures inv (first >>= next) (Returns better) :=
  Ensures.bind hfirst (fun value hvalue => hnext value (hvalue value rfl)) fun error _ =>
    returns_error error

theorem ensures_mapM_returns {evaluate : α → Evaluation β} {items : List α}
    {good : α → β → Prop}
    (h : ∀ item ∈ items, Ensures inv (evaluate item) (Returns (good item))) :
    Ensures inv (items.mapM evaluate) (Returns (List.Forall₂ good items)) := by
  induction items with
  | nil => exact ensures_pure_returns .nil
  | cons head rest ih =>
      rw [List.mapM_cons]
      refine ensures_bind_returns (h head List.mem_cons_self) fun value hvalue => ?_
      refine ensures_bind_returns (ih fun item hmem => h item (List.mem_cons_of_mem _ hmem))
        fun others hothers => ?_
      exact ensures_pure_returns (.cons hvalue hothers)

/-- If the outcome is an error, it is one of those. -/
def FailsWithin (expected : MetricError → Prop) (outcome : Except MetricError α) : Prop :=
  ∀ error, outcome = .error error → expected error

section Errors

variable {expected : MetricError → Prop}

theorem failsWithin_ok (value : α) : FailsWithin expected (.ok value) := by
  intro error herror
  cases herror

theorem failsWithin_error {error : MetricError} (h : expected error) :
    FailsWithin expected (.error error : Except MetricError α) := by
  intro other hother
  obtain rfl := Except.error.inj hother
  exact h

theorem failsWithin_bind {outcome : Except MetricError α} {next : α → Except MetricError β}
    (h : FailsWithin expected outcome) (hnext : ∀ value, FailsWithin expected (next value)) :
    FailsWithin expected (outcome >>= next) := by
  cases outcome with
  | error error => exact failsWithin_error (h error rfl)
  | ok value => exact hnext value

theorem ensures_bind_failsWithin {first : Evaluation α} {next : α → Evaluation β}
    (hfirst : Ensures inv first (FailsWithin expected))
    (hnext : ∀ value, Ensures inv (next value) (FailsWithin expected)) :
    Ensures inv (first >>= next) (FailsWithin expected) :=
  Ensures.bind hfirst (fun value _ => hnext value) fun error herror =>
    failsWithin_error (herror error rfl)

theorem ensures_pure_failsWithin (value : α) :
    Ensures inv (pure value) (FailsWithin expected) :=
  ensures_ofExcept (failsWithin_ok value)

theorem ensures_mapM_failsWithin {evaluate : α → Evaluation β} {items : List α}
    (h : ∀ item ∈ items, Ensures inv (evaluate item) (FailsWithin expected)) :
    Ensures inv (items.mapM evaluate) (FailsWithin expected) := by
  induction items with
  | nil => exact ensures_pure_failsWithin []
  | cons head rest ih =>
      rw [List.mapM_cons]
      refine ensures_bind_failsWithin (h head List.mem_cons_self) fun value => ?_
      refine ensures_bind_failsWithin (ih fun item hmem => h item (List.mem_cons_of_mem _ hmem))
        fun others => ?_
      exact ensures_pure_failsWithin (value :: others)

end Errors

end MetricLayer.Evaluation

namespace MetricLayer.Engine

/-- One step of the evaluation over a cache, with the metrics that the definition refers to left to
a function. -/
def definitionStep (engine : Engine) (evaluate : String → Context → Evaluation (Option Float))
    (name : String) (context : Context) : Evaluation (Option Float) := do
  let metric ← .ofExcept (engine.metric name)
  match metric.kind with
  | .fact fact => .ofExcept (engine.factValue fact context)
  | .expression expression => .ofExcept (engine.expressionValue expression context)
  | .derived derived =>
      let entries ← derived.dependsOn.mapM fun dependency => do
        let value ← evaluate dependency context
        return (dependency, value)
      return derived.combinator (.ofList entries) engine.database context
  | .transform transform =>
      let changed ← .ofExcept (engine.transformed transform.transform context)
      evaluate transform.base changed

theorem evaluateWithin_succ (engine : Engine) (depth : Nat) (name : String) (context : Context) :
    engine.evaluateWithin (depth + 1) name context =
      memoised (.of name context)
        (engine.definitionStep (engine.evaluateWithin depth) name context) :=
  rfl

end MetricLayer.Engine

namespace MetricLayer.Cache

theorem look_of_find?_eq_some {cache : Cache} {key : CacheKey} {value : Option Float}
    (h : cache.find? key = some value) :
    cache.look key = (some value,
      { cache with hits := cache.hits + 1, journal := .found key :: cache.journal }) := by
  rw [look, h]

theorem look_of_find?_eq_none {cache : Cache} {key : CacheKey} (h : cache.find? key = none) :
    cache.look key = (none, { cache with misses := cache.misses + 1 }) := by
  rw [look, h]

@[simp]
theorem entries_look (cache : Cache) (key : CacheKey) :
    (cache.look key).2.entries = cache.entries := by
  rw [look]
  split <;> rfl

@[simp]
theorem find?_empty (key : CacheKey) : empty.find? key = none := rfl

theorem find?_look (cache : Cache) (key other : CacheKey) :
    (cache.look key).2.find? other = cache.find? other := by
  rw [find?, entries_look, find?]

theorem find?_store (cache : Cache) (key other : CacheKey) (value : Option Float) :
    (cache.store key value).find? other =
      if other = key then some value else cache.find? other := by
  have hfilter : ∀ entries : List (CacheKey × Option Float), other ≠ key →
      (entries.filter fun entry => entry.1 ≠ key).lookup other = entries.lookup other := by
    intro entries hne
    induction entries with
    | nil => rfl
    | cons head rest ih =>
        by_cases hhead : head.1 = key
        · have hother : (other == head.1) = false := by simpa [hhead] using hne
          rw [List.filter_cons_of_neg (by simpa using hhead), ih, List.lookup_cons, hother]
        · rw [List.filter_cons_of_pos (by simpa using hhead), List.lookup_cons, List.lookup_cons,
            ih]
  rw [find?, store, insert, find?, List.lookup_cons]
  split
  · rename_i heq
    rw [if_pos (by simpa using heq)]
  · rename_i hne
    have hne : other ≠ key := by simpa using hne
    rw [if_neg hne, hfilter cache.entries hne]

end MetricLayer.Cache
