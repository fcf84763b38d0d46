import MetricLayer.Context
import MetricLayer.Metric.Error

namespace MetricLayer

structure CacheKey where
  metric : String
  context : String
deriving DecidableEq, Repr, Inhabited

def CacheKey.of (metric : String) (context : Context) : CacheKey := ⟨metric, context.key⟩

inductive CacheEvent where
  | found (key : CacheKey)
  | stored (key : CacheKey) (value : Option Float)

/-- A value is held under the key of its context, null like any other value. -/
structure Cache where
  entries : List (CacheKey × Option Float)
  hits : Nat
  misses : Nat
  journal : List CacheEvent
deriving Inhabited

namespace Cache

def empty : Cache := ⟨[], 0, 0, []⟩

def size (cache : Cache) : Nat := cache.entries.length

def find? (cache : Cache) (key : CacheKey) : Option (Option Float) := cache.entries.lookup key

def look (cache : Cache) (key : CacheKey) : Option (Option Float) × Cache :=
  match cache.find? key with
  | some value =>
      (some value, { cache with hits := cache.hits + 1, journal := .found key :: cache.journal })
  | none => (none, { cache with misses := cache.misses + 1 })

def insert (cache : Cache) (key : CacheKey) (value : Option Float) : Cache :=
  { cache with entries := (key, value) :: cache.entries.filter fun entry => entry.1 ≠ key }

def store (cache : Cache) (key : CacheKey) (value : Option Float) : Cache :=
  let cache := cache.insert key value
  { cache with journal := .stored key value :: cache.journal }

end Cache

/-- A computation that may fail and that keeps what it stored in the cache when it does. -/
abbrev Evaluation (α : Type) := ExceptT MetricError (StateM Cache) α

/-- A result that was found without the cache. -/
def Evaluation.ofExcept {α : Type} : Except MetricError α → Evaluation α
  | .ok value => pure value
  | .error error => throw error

end MetricLayer
