import MetricLayer.Registry.Graph
import MetricLayer.Proofs.Lists.FirstOccurrences
import Mathlib.Logic.Relation
import Mathlib.Data.List.Perm.Subperm

/-!
# The breadth-first search finds every way there is

`path?` gives a path exactly when the target can be reached in one step or more, provided that the
number handed to it covers all names that can be met. The names already left carry the proof: their
successors have all been seen and none of them is the target, so a search that runs out of ways has
seen a set that no step leaves.
-/

namespace MetricLayer.Graph

def Edge (next : Successors) (source target : String) : Prop := target ∈ next source

variable {next : Successors} {target : String}

/-- A set of names that no step leaves and from which no step leads to the target. -/
structure Avoids (next : Successors) (target : String) (names : List String) : Prop where
  closed : ∀ name ∈ names, ∀ other ∈ next name, other ∈ names
  avoids : ∀ name ∈ names, target ∉ next name

theorem Avoids.not_transGen {names : List String} (h : Avoids next target names) {start : String}
    (hstart : start ∈ names) : ¬ Relation.TransGen (Edge next) start target := by
  intro hreach
  induction hreach using Relation.TransGen.head_induction_on with
  | single hedge => exact h.avoids _ hstart hedge
  | head hedge _ ih => exact ih (h.closed _ hstart _ hedge)

theorem mem_unseen {seen names : List String} {name : String} :
    name ∈ unseen seen names ↔ name ∈ names ∧ name ∉ seen := by
  simp [unseen]

theorem nodup_unseen (seen names : List String) : (unseen seen names).Nodup :=
  MetricLayer.nodup_eraseDups _

def ends (queue : List (List String)) : List String := queue.filterMap List.head?

theorem ends_extend (way : List String) (names : List String) :
    ends (names.map (· :: way)) = names := by
  simp [ends, List.filterMap_map, Function.comp_def]

/-- The state of a search: the names already left and those still queued make up the names seen. -/
structure Searching (next : Successors) (target : String) (scope left : List String)
    (queue : List (List String)) (seen : List String) : Prop where
  nonempty : ∀ way ∈ queue, way ≠ []
  nodup : (left ++ ends queue).Nodup
  seen_eq : ∀ name, name ∈ seen ↔ name ∈ left ∨ name ∈ ends queue
  within : ∀ name ∈ seen, name ∈ scope
  settled : ∀ name ∈ left, target ∉ next name ∧ ∀ other ∈ next name, other ∈ seen

theorem Searching.length_left_le {scope left seen : List String} {queue : List (List String)}
    (h : Searching next target scope left queue seen) : left.length ≤ scope.length := by
  have hnodup := (List.nodup_append.mp h.nodup).1
  have hsub : left ⊆ scope := fun name hmem => h.within name ((h.seen_eq name).mpr (.inl hmem))
  exact (List.subperm_of_subset hnodup hsub).length_le

/-- Leaving the first name of the queue, when no step from it ends at the target. -/
theorem Searching.leave {scope left seen way : List String} {name : String}
    {queue : List (List String)}
    (hscope : ∀ name ∈ scope, ∀ other ∈ next name, other ∈ scope)
    (h : Searching next target scope left ((name :: way) :: queue) seen)
    (hmiss : target ∉ next name) :
    Searching next target scope (left ++ [name])
      (queue ++ (unseen seen (next name)).map (· :: name :: way))
      (seen ++ unseen seen (next name)) := by
  have hends : ends (queue ++ (unseen seen (next name)).map (· :: name :: way)) =
      ends queue ++ unseen seen (next name) := by
    rw [ends, List.filterMap_append]
    exact congrArg _ (ends_extend (name :: way) _)
  have hseen : ∀ other, other ∈ seen ↔ other ∈ left ++ name :: ends queue := by
    intro other
    rw [h.seen_eq other, List.mem_append]
    rfl
  refine ⟨?_, ?_, ?_, ?_, ?_⟩
  · intro other hmem
    rcases List.mem_append.mp hmem with hold | hnew
    · exact h.nonempty other (List.mem_cons_of_mem _ hold)
    · obtain ⟨head, _, rfl⟩ := List.mem_map.mp hnew
      exact List.cons_ne_nil _ _
  · have hold : (left ++ name :: ends queue).Nodup := h.nodup
    rw [hends, List.append_assoc, List.singleton_append, ← List.cons_append,
      ← List.append_assoc, List.nodup_append]
    refine ⟨hold, nodup_unseen _ _, ?_⟩
    rintro other hleft _ hright rfl
    exact (mem_unseen.mp hright).2 ((hseen other).mpr hleft)
  · intro other
    rw [hends]
    simp only [List.mem_append, hseen, List.mem_cons]
    tauto
  · intro other hmem
    rcases List.mem_append.mp hmem with hold | hnew
    · exact h.within other hold
    · refine hscope name (h.within name ((hseen name).mpr ?_)) other (mem_unseen.mp hnew).1
      exact List.mem_append_right _ List.mem_cons_self
  · intro other hmem
    rcases List.mem_append.mp hmem with hold | hnew
    · exact ⟨(h.settled other hold).1, fun successor hsucc =>
        List.mem_append_left _ ((h.settled other hold).2 successor hsucc)⟩
    · obtain rfl := List.mem_singleton.mp hnew
      refine ⟨hmiss, fun successor hsucc => ?_⟩
      by_cases hknown : successor ∈ seen
      · exact List.mem_append_left _ hknown
      · exact List.mem_append_right _ (mem_unseen.mpr ⟨hsucc, hknown⟩)

theorem search?_cons (name : String) (way : List String) (queue : List (List String))
    (bound : Nat) (seen : List String) :
    search? next target (bound + 1) ((name :: way) :: queue) seen =
      if (next name).contains target then some (target :: name :: way).reverse
      else search? next target bound (queue ++ (unseen seen (next name)).map (· :: name :: way))
        (seen ++ unseen seen (next name)) := rfl

/-- A search that fails has seen a set that no step leaves and that misses the target. -/
theorem avoids_of_search?_eq_none {scope : List String}
    (hscope : ∀ name ∈ scope, ∀ other ∈ next name, other ∈ scope) (bound : Nat) :
    ∀ (left : List String) (queue : List (List String)) (seen : List String),
      Searching next target scope left queue seen →
      scope.length < bound + left.length →
      search? next target bound queue seen = none →
      ∃ names, (∀ name ∈ seen, name ∈ names) ∧ Avoids next target names := by
  induction bound with
  | zero =>
      intro left queue seen h hbound _
      have := h.length_left_le
      omega
  | succ bound ih =>
      intro left queue seen h hbound hnone
      cases queue with
      | nil =>
          have hleft : ∀ name ∈ seen, name ∈ left := by
            intro name hmem
            simpa [ends] using (h.seen_eq name).mp hmem
          exact ⟨seen, fun name hmem => hmem,
            fun name hmem => (h.settled name (hleft name hmem)).2,
            fun name hmem => (h.settled name (hleft name hmem)).1⟩
      | cons way queue =>
          cases way with
          | nil => exact absurd rfl (h.nonempty [] List.mem_cons_self)
          | cons name way =>
              rw [search?_cons] at hnone
              split at hnone
              · cases hnone
              · rename_i hmiss
                have hmiss' : target ∉ next name := by simpa using hmiss
                obtain ⟨names, hseen, hnames⟩ := ih _ _ _ (h.leave hscope hmiss')
                  (by rw [List.length_append, List.length_singleton]; omega) hnone
                exact ⟨names, fun other hmem => hseen other (List.mem_append_left _ hmem), hnames⟩

theorem transGen_of_search? {start : String} (bound : Nat) :
    ∀ (queue : List (List String)) (seen path : List String),
      (∀ way ∈ queue, ∃ name rest, way = name :: rest ∧
        Relation.ReflTransGen (Edge next) start name) →
      search? next target bound queue seen = some path →
      Relation.TransGen (Edge next) start target := by
  induction bound with
  | zero =>
      intro queue seen path _ hsome
      cases hsome
  | succ bound ih =>
      intro queue seen path hqueue hsome
      cases queue with
      | nil => cases hsome
      | cons way queue =>
          obtain ⟨name, rest, rfl, hname⟩ := hqueue way List.mem_cons_self
          rw [search?_cons] at hsome
          split at hsome
          · rename_i hhit
            exact Relation.TransGen.tail' hname (List.contains_iff_mem.mp hhit)
          · refine ih _ _ path (fun other hmem => ?_) hsome
            rcases List.mem_append.mp hmem with hold | hnew
            · exact hqueue other (List.mem_cons_of_mem _ hold)
            · obtain ⟨head, hhead, rfl⟩ := List.mem_map.mp hnew
              exact ⟨head, name :: rest, rfl, hname.tail (mem_unseen.mp hhead).1⟩

/-- The names are given once each and hold every successor of theirs. -/
structure Scope (next : Successors) (names : List String) : Prop where
  nodup : names.Nodup
  closed : ∀ name ∈ names, ∀ other ∈ next name, other ∈ names

theorem searching_start {names : List String} {start : String} (hstart : start ∈ names) :
    Searching next target names [] [[start]] [start] where
  nonempty := by simp
  nodup := by simp [ends]
  seen_eq := by simp [ends]
  within := by simpa using hstart
  settled := by simp

theorem reaches_iff {names : List String} (h : Scope next names) {start : String}
    (hstart : start ∈ names) :
    reaches next names.length start target = true ↔
      Relation.TransGen (Edge next) start target := by
  rw [reaches, path?]
  constructor
  · intro hsome
    obtain ⟨path, hpath⟩ := Option.isSome_iff_exists.mp hsome
    refine transGen_of_search? _ _ _ path (fun way hmem => ?_) hpath
    obtain rfl := List.mem_singleton.mp hmem
    exact ⟨start, [], rfl, .refl⟩
  · intro hreach
    by_contra hnone
    rw [Bool.not_eq_true, Option.isSome_eq_false_iff, Option.isNone_iff_eq_none] at hnone
    obtain ⟨closed, hseen, havoids⟩ := avoids_of_search?_eq_none h.closed _ [] _ _
      (searching_start hstart) (by simp) hnone
    exact havoids.not_transGen (hseen start (by simp)) hreach

end MetricLayer.Graph
