import MetricLayer.Proofs.Evaluation.Lockstep
import MetricLayer.Proofs.Evaluation.Memo

/-!
# Accounts of a cache

`Engine.audit` is the evaluation with a ledger: it notes every invocation when it returns, with its
key, how it ended and what the cache held then. Forgetting the ledger gives the evaluation back.

`Balanced` is what the ledger and the counters of the cache have to do with each other while some
invocations have not returned. The metrics of those lead to the metric that is being evaluated, so
in a registry that was built none of their keys can be stored in the meantime. Hence every value is
stored under a key that the cache does not have.
-/

namespace MetricLayer

inductive Ending where
  | found (value : Option Float)
  | computed (value : Option Float)
  | failed (error : MetricError)

/-- What is noted of an invocation that returned, with what the cache held when it did. -/
structure Receipt where
  key : CacheKey
  ending : Ending
  entries : List (CacheKey × Option Float)

namespace Receipt

def hasFailed (receipt : Receipt) : Bool :=
  match receipt.ending with
  | .failed _ => true
  | .found _ | .computed _ => false

def computed? (receipt : Receipt) : Option (CacheKey × Option Float) :=
  match receipt.ending with
  | .computed value => some (receipt.key, value)
  | .found _ | .failed _ => none

end Receipt

/-- A cache, and the receipts of the invocations that have returned, the last one first. -/
structure Ledger where
  cache : Cache
  returned : List Receipt

namespace Ledger

def empty : Ledger := ⟨.empty, []⟩

def settle (ledger : Ledger) (cache : Cache) (key : CacheKey) (ending : Ending) : Ledger :=
  ⟨cache, ⟨key, ending, cache.entries⟩ :: ledger.returned⟩

def failures (ledger : Ledger) : Nat := ledger.returned.countP Receipt.hasFailed

def computed (ledger : Ledger) : List (CacheKey × Option Float) :=
  ledger.returned.filterMap Receipt.computed?

theorem failures_settle_failed (ledger : Ledger) (cache : Cache) (key : CacheKey)
    (error : MetricError) :
    (ledger.settle cache key (.failed error)).failures = ledger.failures + 1 :=
  List.countP_cons_of_pos rfl

theorem failures_settle_computed (ledger : Ledger) (cache : Cache) (key : CacheKey)
    (value : Option Float) :
    (ledger.settle cache key (.computed value)).failures = ledger.failures :=
  List.countP_cons_of_neg Bool.false_ne_true

theorem computed_settle_computed (ledger : Ledger) (cache : Cache) (key : CacheKey)
    (value : Option Float) :
    (ledger.settle cache key (.computed value)).computed = (key, value) :: ledger.computed :=
  rfl

end Ledger

theorem Cache.entries_store_of_fresh {cache : Cache} {key : CacheKey}
    (h : key ∉ cache.entries.map (·.1)) (value : Option Float) :
    (cache.store key value).entries = (key, value) :: cache.entries := by
  have hothers : cache.entries.filter (fun entry => entry.1 ≠ key) = cache.entries := by
    refine List.filter_eq_self.mpr fun entry hentry => decide_eq_true ?_
    rintro rfl
    exact h (List.mem_map_of_mem hentry)
  rw [store, insert, hothers]

/-- A computation that keeps a ledger. -/
abbrev Audit (α : Type) := ExceptT MetricError (StateM Ledger) α

namespace Audit

def ofExcept {α : Type} : Except MetricError α → Audit α
  | .ok value => pure value
  | .error error => throw error

/-- An invocation with that key: the look-up, the computation if nothing was found, and the note of
how it ended. -/
def invoke (key : CacheKey) (compute : Audit (Option Float)) : Audit (Option Float) :=
  ExceptT.mk fun ledger =>
    match ledger.cache.find? key with
    | some value => (.ok value, ledger.settle (ledger.cache.look key).2 key (.found value))
    | none =>
        match compute.run.run { ledger with cache := (ledger.cache.look key).2 } with
        | (.ok value, after) =>
            (.ok value, after.settle (after.cache.store key value) key (.computed value))
        | (.error error, after) => (.error error, after.settle after.cache key (.failed error))

end Audit

namespace Engine

def auditWithin (engine : Engine) : Nat → String → Context → Audit (Option Float)
  | 0, name, _ => throw (.cyclicDefinition [name])
  | depth + 1, name, context => .invoke (.of name context) do
      let metric ← .ofExcept (engine.metric name)
      match metric.kind with
      | .fact fact => .ofExcept (engine.factValue fact context)
      | .expression expression => .ofExcept (engine.expressionValue expression context)
      | .derived derived =>
          let entries ← derived.dependsOn.mapM fun dependency => do
            let value ← engine.auditWithin depth dependency context
            return (dependency, value)
          return derived.combinator (.ofList entries) engine.database context
      | .transform transform =>
          let changed ← .ofExcept (engine.transformed transform.transform context)
          engine.auditWithin depth transform.base changed

def audit (engine : Engine) (name : String) (context : Context) : Audit (Option Float) :=
  engine.auditWithin engine.maxDepth name context

/-- The calls of `outcomes`, with a ledger. -/
def auditedOutcomes (engine : Engine) (calls : List (String × Context)) :
    StateM Ledger (List (Except MetricError (Option Float))) :=
  calls.mapM fun (name, context) => (engine.audit name context).run

end Engine

/-- The accounts since a start, while the invocations with the pending keys have not returned. -/
structure Balanced (start : Ledger) (pending : List CacheKey) (ledger : Ledger) : Prop where
  invocations : ledger.cache.hits + ledger.cache.misses = ledger.returned.length + pending.length
  misses : ledger.cache.misses = ledger.cache.size + ledger.failures + pending.length
  entries : ledger.cache.entries = ledger.computed
  once : (ledger.computed.map (·.1)).Nodup
  kept : (ledger.cache.entries :: ledger.returned.map Receipt.entries).Pairwise
    fun later earlier => earlier <:+ later
  pending : ∀ key ∈ pending, key ∉ ledger.computed.map (·.1)
  continued : start.returned <:+ ledger.returned

namespace Balanced

variable {start ledger : Ledger} {pending : List CacheKey} {key : CacheKey}

theorem empty : Balanced .empty [] .empty where
  invocations := rfl
  misses := rfl
  entries := rfl
  once := List.nodup_nil
  kept := List.pairwise_singleton _ _
  pending := fun _ hkey => by cases hkey
  continued := List.suffix_refl _

theorem restart (h : Balanced start [] ledger) : Balanced ledger [] ledger :=
  { h with continued := List.suffix_refl _ }

theorem find?_eq_none_iff (h : Balanced start pending ledger) :
    ledger.cache.find? key = none ↔ key ∉ ledger.computed.map (·.1) := by
  rw [Cache.find?, h.entries, List.lookup_eq_none_iff, List.mem_map]
  constructor
  · rintro hkeys ⟨entry, hentry, rfl⟩
    exact absurd (hkeys entry hentry) (by rw [bne_self_eq_false]; exact Bool.false_ne_true)
  · intro hkey entry hentry
    rw [bne_iff_ne]
    rintro rfl
    exact hkey ⟨entry, hentry, rfl⟩

theorem kept_settle (h : Balanced start pending ledger) {cache : Cache} (ending : Ending)
    (hentries : ledger.cache.entries <:+ cache.entries) :
    (cache.entries :: (ledger.settle cache key ending).returned.map Receipt.entries).Pairwise
      fun later earlier => earlier <:+ later := by
  obtain ⟨hlast, hrest⟩ := List.pairwise_cons.mp h.kept
  have hall : ∀ earlier ∈ ledger.returned.map Receipt.entries, earlier <:+ cache.entries :=
    fun earlier hearlier => (hlast earlier hearlier).trans hentries
  refine List.pairwise_cons.mpr ⟨fun earlier hearlier => ?_, List.pairwise_cons.mpr ⟨hall, hrest⟩⟩
  rcases List.mem_cons.mp hearlier with rfl | hearlier
  · exact List.suffix_refl _
  · exact hall earlier hearlier

theorem found (h : Balanced start pending ledger) {value : Option Float}
    (hfound : ledger.cache.find? key = some value) :
    Balanced start pending (ledger.settle (ledger.cache.look key).2 key (.found value)) := by
  rw [Cache.look_of_find?_eq_some hfound]
  exact {
    invocations := by
      have := h.invocations
      simp only [Ledger.settle, List.length_cons]
      omega
    misses := h.misses
    entries := h.entries
    once := h.once
    kept := h.kept_settle _ (List.suffix_refl _)
    pending := h.pending
    continued := h.continued.trans (List.suffix_cons _ _) }

/-- A look-up that found nothing opens an invocation. -/
theorem opened (h : Balanced start pending ledger) (hfound : ledger.cache.find? key = none) :
    Balanced start (key :: pending) { ledger with cache := (ledger.cache.look key).2 } := by
  rw [Cache.look_of_find?_eq_none hfound]
  exact {
    invocations := by
      have := h.invocations
      simp only [List.length_cons]
      omega
    misses := by
      have := h.misses
      simp only [List.length_cons, Cache.size, Ledger.failures] at this ⊢
      omega
    entries := h.entries
    once := h.once
    kept := h.kept
    pending := by
      intro other hother
      rcases List.mem_cons.mp hother with rfl | hother
      · exact h.find?_eq_none_iff.mp hfound
      · exact h.pending other hother
    continued := h.continued }

theorem failed (h : Balanced start (key :: pending) ledger) (error : MetricError) :
    Balanced start pending (ledger.settle ledger.cache key (.failed error)) where
  invocations := by
    have := h.invocations
    simp only [Ledger.settle, List.length_cons] at this ⊢
    omega
  misses := by
    have hmisses := h.misses
    rw [Ledger.failures_settle_failed]
    simp only [Ledger.settle, List.length_cons] at hmisses ⊢
    omega
  entries := h.entries
  once := h.once
  kept := h.kept_settle _ (List.suffix_refl _)
  pending := fun other hother => h.pending other (List.mem_cons_of_mem _ hother)
  continued := h.continued.trans (List.suffix_cons _ _)

/-- The key of a pending invocation is stored as a new one. -/
theorem computed (h : Balanced start (key :: pending) ledger) (hkey : key ∉ pending)
    (value : Option Float) :
    Balanced start pending
      (ledger.settle (ledger.cache.store key value) key (.computed value)) := by
  have hfresh : key ∉ ledger.computed.map (·.1) := h.pending key List.mem_cons_self
  have hentries : (ledger.cache.store key value).entries = (key, value) :: ledger.cache.entries :=
    Cache.entries_store_of_fresh (h.entries ▸ hfresh) value
  exact {
    invocations := by
      have := h.invocations
      simp only [Ledger.settle, Cache.store, Cache.insert, List.length_cons] at this ⊢
      omega
    misses := by
      have hmisses := h.misses
      have hsize : (ledger.cache.store key value).size = ledger.cache.size + 1 := by
        rw [Cache.size, hentries, List.length_cons, Cache.size]
      rw [Ledger.failures_settle_computed]
      change ledger.cache.misses = (ledger.cache.store key value).size + _ + _
      rw [hsize]
      rw [List.length_cons] at hmisses
      omega
    entries := by
      rw [Ledger.computed_settle_computed, ← h.entries]
      exact hentries
    once := by
      rw [Ledger.computed_settle_computed, List.map_cons]
      exact List.nodup_cons.mpr ⟨hfresh, h.once⟩
    kept := h.kept_settle _ (hentries ▸ List.suffix_cons _ _)
    pending := by
      intro other hother
      rw [Ledger.computed_settle_computed, List.map_cons, List.mem_cons, not_or]
      refine ⟨?_, h.pending other (List.mem_cons_of_mem _ hother)⟩
      rintro rfl
      exact hkey hother
    continued := h.continued.trans (List.suffix_cons _ _) }

end Balanced

/-- The ledger is one for that cache and balances. -/
def Tallies (start : Ledger) (pending : List CacheKey) (ledger : Ledger) (cache : Cache) : Prop :=
  ledger.cache = cache ∧ Balanced start pending ledger

namespace Audit

open Evaluation (Lockstep lockstep_pure lockstep_throw)

variable {α β : Type} {start : Ledger} {pending : List CacheKey}

theorem run_invoke (key : CacheKey) (compute : Audit (Option Float)) (ledger : Ledger) :
    (invoke key compute).run.run ledger = match ledger.cache.find? key with
      | some value => (.ok value, ledger.settle (ledger.cache.look key).2 key (.found value))
      | none => match compute.run.run { ledger with cache := (ledger.cache.look key).2 } with
          | (.ok value, after) =>
              (.ok value, after.settle (after.cache.store key value) key (.computed value))
          | (.error error, after) => (.error error, after.settle after.cache key (.failed error)) :=
  rfl

theorem lockstep_ofExcept {related : Ledger → Cache → Prop} (outcome : Except MetricError α) :
    Lockstep related (ofExcept outcome) (Evaluation.ofExcept outcome) := by
  cases outcome with
  | error error => exact lockstep_throw error
  | ok value => exact lockstep_pure value

/-- An invocation balances if its computation does while it is pending. -/
theorem lockstep_invoke {key : CacheKey} {compute : Audit (Option Float)}
    {plain : Evaluation (Option Float)} (hkey : key ∉ pending)
    (hcompute : Lockstep (Tallies start (key :: pending)) compute plain) :
    Lockstep (Tallies start pending) (invoke key compute) (Engine.memoised key plain) := by
  rintro ledger _ ⟨rfl, hbalanced⟩
  rw [run_invoke, Evaluation.run_memoised]
  cases hfind : ledger.cache.find? key with
  | some value => exact ⟨rfl, rfl, hbalanced.found hfind⟩
  | none =>
      obtain ⟨houtcome, hcache, hafter⟩ := hcompute _ _ ⟨rfl, hbalanced.opened hfind⟩
      dsimp only at houtcome hcache ⊢
      rcases hrun : compute.run.run { ledger with cache := (ledger.cache.look key).2 } with
        ⟨outcome, settled⟩
      rcases hplain : plain.run.run (ledger.cache.look key).2 with ⟨outcome', cache⟩
      rw [hrun, hplain] at houtcome hcache
      rw [hrun] at hafter
      obtain rfl : outcome = outcome' := houtcome
      obtain rfl : settled.cache = cache := hcache
      cases outcome with
      | error error => exact ⟨rfl, rfl, hafter.failed error⟩
      | ok value => exact ⟨rfl, rfl, hafter.computed hkey value⟩

end Audit

namespace Engine

open Evaluation Registry Relation

variable {engine : Engine} {name : String} {context : Context} {start : Ledger}
  {pending : List CacheKey}

/-- The pending invocations lead to this one, so their keys are kept from being stored by the
invocations that this one starts. -/
theorem lockstep_auditWithin
    (hacyclic : ∀ name, ¬ TransGen (RefersTo engine.registry.metrics) name name) (depth : Nat)
    (hends : EndsWithin engine.registry.metrics depth name)
    (hpending : ∀ key ∈ pending, TransGen (RefersTo engine.registry.metrics) key.metric name) :
    Lockstep (Tallies start pending) (engine.auditWithin depth name context)
      (engine.evaluateWithin depth name context) := by
  induction depth generalizing name context pending with
  | zero => exact hends.elim
  | succ depth ih =>
      have hkey : CacheKey.of name context ∉ pending :=
        fun hmem => hacyclic name (hpending _ hmem)
      refine Audit.lockstep_invoke hkey ?_
      refine (Audit.lockstep_ofExcept _).bind fun metric ⟨cache, hmetric⟩ => ?_
      rw [run_ofExcept] at hmetric
      have hfound := metric_eq_ok hmetric
      have hnext : ∀ next, RefersTo engine.registry.metrics name next → ∀ changed,
          Lockstep (Tallies start (CacheKey.of name context :: pending))
            (engine.auditWithin depth next changed) (engine.evaluateWithin depth next changed) := by
        intro next hnext changed
        refine ih (hends next hnext) fun key hmem => ?_
        rcases List.mem_cons.mp hmem with rfl | hmem
        · exact .single hnext
        · exact (hpending key hmem).tail hnext
      cases hkind : metric.kind with
      | fact fact => exact Audit.lockstep_ofExcept _
      | expression expression => exact Audit.lockstep_ofExcept _
      | derived derived =>
          refine (lockstep_mapM fun next hmem => ?_).bind fun entries _ => lockstep_pure _
          exact (hnext next (refersTo_of_derived hfound hkind hmem) context).bind
            fun value _ => lockstep_pure (next, value)
      | transform transform =>
          refine (Audit.lockstep_ofExcept _).bind fun changed _ => ?_
          exact hnext transform.base (refersTo_of_transform hfound hkind) changed

theorem run_auditedOutcomes_cons (engine : Engine) (call : String × Context)
    (calls : List (String × Context)) (ledger : Ledger) :
    (engine.auditedOutcomes (call :: calls)).run ledger =
      let first := (engine.audit call.1 call.2).run.run ledger
      let others := (engine.auditedOutcomes calls).run first.2
      (first.1 :: others.1, others.2) := by
  rw [auditedOutcomes, List.mapM_cons]
  rfl

theorem run_auditedOutcomes_append (engine : Engine) (earlier later : List (String × Context))
    (ledger : Ledger) :
    ((engine.auditedOutcomes (earlier ++ later)).run ledger).2 =
      ((engine.auditedOutcomes later).run ((engine.auditedOutcomes earlier).run ledger).2).2 := by
  induction earlier generalizing ledger with
  | nil => rfl
  | cons call earlier ih =>
      rw [List.cons_append, run_auditedOutcomes_cons, run_auditedOutcomes_cons]
      exact ih _

theorem tallies_auditedOutcomes (hfounded : engine.Founded)
    (hacyclic : ∀ name, ¬ TransGen (RefersTo engine.registry.metrics) name name)
    (calls : List (String × Context)) {ledger : Ledger} {cache : Cache}
    (h : Tallies start [] ledger cache) :
    ((engine.auditedOutcomes calls).run ledger).1 = ((engine.outcomes calls).run cache).1 ∧
      Tallies start [] ((engine.auditedOutcomes calls).run ledger).2
        ((engine.outcomes calls).run cache).2 := by
  induction calls generalizing ledger cache with
  | nil => exact ⟨rfl, h⟩
  | cons call calls ih =>
      have hcall : Lockstep (Tallies start []) (engine.audit call.1 call.2)
          (engine.evaluate call.1 call.2) :=
        lockstep_auditWithin hacyclic _ (hfounded call.1) (by simp)
      obtain ⟨houtcome, hafter⟩ := hcall ledger cache h
      obtain ⟨hothers, hend⟩ := ih hafter
      rw [run_outcomes_cons, run_auditedOutcomes_cons]
      exact ⟨congrArg₂ List.cons houtcome hothers, hend⟩

/-- **The accounts of a cache add up.** After any calls that share a cache, the look-ups are as many
as the invocations, nested ones included, and the misses are as many as the entries and the
invocations that failed. The entries are what the invocations computed, each key once, on top of
what the cache held when any of them returned. The invocations of later calls come on top of those
of earlier ones. -/
theorem accounts_auditedOutcomes {factTables : List FactTable} {definitions : List Metric}
    {transforms : Transforms} {registry : Registry}
    (hbuild : Registry.build factTables definitions transforms = .ok registry)
    (database : Database) (display : DisplaySettings) (earlier later : List (String × Context)) :
    let engine : Engine := ⟨registry, database, display⟩
    let calls := earlier ++ later
    let audited := (engine.auditedOutcomes calls).run .empty
    let cache := audited.2.cache
    (engine.outcomes calls).run .empty = (audited.1, cache) ∧
      cache.hits + cache.misses = audited.2.returned.length ∧
      cache.misses = cache.size + audited.2.failures ∧
      cache.entries = audited.2.computed ∧
      (audited.2.computed.map (·.1)).Nodup ∧
      (cache.entries :: audited.2.returned.map Receipt.entries).Pairwise
        (fun after before => before <:+ after) ∧
      ((engine.auditedOutcomes earlier).run .empty).2.returned <:+ audited.2.returned := by
  intro engine calls audited cache
  have hfounded : engine.Founded := founded_of_build hbuild database display
  have hacyclic := not_refersTo_self_of_build hbuild
  obtain ⟨houtcomes, hcache, _⟩ :=
    tallies_auditedOutcomes hfounded hacyclic calls ⟨rfl, Balanced.empty⟩
  obtain ⟨_, _, hbefore⟩ :=
    tallies_auditedOutcomes hfounded hacyclic earlier ⟨rfl, Balanced.empty⟩
  obtain ⟨_, _, hafter⟩ :=
    tallies_auditedOutcomes hfounded hacyclic later ⟨rfl, hbefore.restart⟩
  have haudited : audited.2 = ((engine.auditedOutcomes later).run
      ((engine.auditedOutcomes earlier).run .empty).2).2 :=
    run_auditedOutcomes_append engine earlier later .empty
  rw [← haudited] at hafter
  exact ⟨Prod.ext houtcomes.symm hcache.symm, hafter.invocations, hafter.misses, hafter.entries,
    hafter.once, hafter.kept, hafter.continued⟩

/-- Margin fails both times, after revenue was computed or found. -/
theorem accounts_auditedOutcomes_salesRegistry :
    let engine : Engine := ⟨salesRegistry, salesRows, .standard⟩
    let earlier := [("margin", ofYear 2023), ("last year", ofYear 2024)]
    let later := [("revenue", ofYear 2023), ("margin", ofYear 2023)]
    let audited := (engine.auditedOutcomes (earlier ++ later)).run .empty
    let cache := audited.2.cache
    (cache.hits = 3 ∧ cache.misses = 6 ∧ cache.size = 2 ∧ audited.2.failures = 4) ∧
      (engine.outcomes (earlier ++ later)).run .empty = (audited.1, cache) ∧
      cache.hits + cache.misses = audited.2.returned.length ∧
      cache.misses = cache.size + audited.2.failures ∧
      cache.entries = audited.2.computed ∧
      (audited.2.computed.map (·.1)).Nodup ∧
      (cache.entries :: audited.2.returned.map Receipt.entries).Pairwise
        (fun after before => before <:+ after) ∧
      ((engine.auditedOutcomes earlier).run .empty).2.returned <:+ audited.2.returned :=
  ⟨by decide +kernel, accounts_auditedOutcomes build_salesRegistry salesRows .standard
    [("margin", ofYear 2023), ("last year", ofYear 2024)]
    [("revenue", ofYear 2023), ("margin", ofYear 2023)]⟩

end Engine

end MetricLayer
