import MetricLayer.Registry
import MetricLayer.Proofs.KeyMap.Lookup
import MetricLayer.Proofs.Registry.Components

/-!
# How deep definitions can be nested

In a registry that was built no metric leads back to itself, so a chain of references has no name
twice and is no longer than the registry is large. `EndsWithin` says that every chain from a name
ends within a number of steps; recursions over definitions are proved by induction on it.
-/

namespace MetricLayer.Registry

open Relation

/-- The first metric is registered and is defined in terms of the second, registered or not. -/
def RefersTo (metrics : KeyMap Metric) (name other : String) : Prop :=
  ∃ metric, metrics.get? name = some metric ∧ other ∈ metric.dependencies

/-- Every chain of references from the name ends within that number of names. -/
def EndsWithin (metrics : KeyMap Metric) : Nat → String → Prop
  | 0, _ => False
  | depth + 1, name => ∀ other, RefersTo metrics name other → EndsWithin metrics depth other

variable {metrics : KeyMap Metric} {name other : String}

theorem RefersTo.contains (h : RefersTo metrics name other) : metrics.contains name = true := by
  obtain ⟨metric, hmetric, _⟩ := h
  exact KeyMap.contains_iff.mpr ⟨metric, hmetric⟩

theorem contains_of_transGen (h : TransGen (RefersTo metrics) name other) :
    metrics.contains name = true := by
  obtain ⟨_, hstep, _⟩ := TransGen.head'_iff.mp h
  exact hstep.contains

theorem edge_successors_iff :
    Graph.Edge (successors metrics) name other ↔
      RefersTo metrics name other ∧ metrics.contains other = true := by
  rw [Graph.Edge, successors, RefersTo]
  cases hmetric : metrics.get? name with
  | none => simp
  | some metric => simp [KeyMap.mem_sortNames_iff, List.mem_filter]

theorem scope_successors : Graph.Scope (successors metrics) metrics.keys where
  nodup := metrics.keys_nodup
  closed := fun _ _ _ hedge => KeyMap.mem_keys_iff_contains.mpr (edge_successors_iff.mp hedge).2

/-- A chain of references to a registered metric runs through registered metrics only. -/
theorem transGen_successors_of_refersTo (hother : metrics.contains other = true)
    (h : TransGen (RefersTo metrics) name other) :
    TransGen (Graph.Edge (successors metrics)) name other := by
  induction h using TransGen.head_induction_on with
  | single hstep => exact .single (edge_successors_iff.mpr ⟨hstep, hother⟩)
  | head hstep hrest ih =>
      exact .head (edge_successors_iff.mpr ⟨hstep, contains_of_transGen hrest⟩) ih

/-- The trail holds the names passed on the way to a name, so it is never longer than the registry
is large. -/
theorem endsWithin_of_trail (hacyclic : ∀ name, ¬ TransGen (RefersTo metrics) name name)
    (depth : Nat) :
    ∀ (trail : List String) (name : String), trail.Nodup →
      (∀ passed ∈ trail, TransGen (RefersTo metrics) passed name) →
      metrics.size < depth + trail.length → EndsWithin metrics depth name := by
  have hbound : ∀ (trail : List String) (name : String), trail.Nodup →
      (∀ passed ∈ trail, TransGen (RefersTo metrics) passed name) →
      trail.length ≤ metrics.size := by
    intro trail name hnodup hpassed
    rw [← KeyMap.length_keys]
    refine (List.subperm_of_subset hnodup fun passed hmem => ?_).length_le
    exact KeyMap.mem_keys_iff_contains.mpr (contains_of_transGen (hpassed passed hmem))
  induction depth with
  | zero =>
      intro trail name hnodup hpassed hlarge
      have := hbound trail name hnodup hpassed
      omega
  | succ depth ih =>
      intro trail name hnodup hpassed hlarge other hstep
      refine ih (name :: trail) other (List.nodup_cons.mpr ⟨fun hmem => ?_, hnodup⟩) ?_ ?_
      · exact hacyclic name (hpassed name hmem)
      · intro passed hmem
        rcases List.mem_cons.mp hmem with rfl | hmem
        · exact .single hstep
        · exact (hpassed passed hmem).tail hstep
      · rw [List.length_cons]
        omega

section Build

variable {factTables : List FactTable} {definitions : List Metric} {transforms : Transforms}
  {registry : Registry}

/-- What a registry that was built consists of. -/
theorem build_eq_ok (h : build factTables definitions transforms = .ok registry) :
    registry = {
        factTables := KeyMap.ofList (factTables.map fun table => (table.name, table))
        metrics := KeyMap.ofList (definitions.map fun metric => (metric.name, metric))
        transforms } ∧
      registry.cycles = [] := by
  unfold build buildBy at h
  split at h
  · cases h
  · dsimp only at h
    split at h
    · rename_i hcycles
      obtain rfl := Except.ok.inj h
      exact ⟨rfl, hcycles⟩
    · cases h

theorem build_of_acyclic
    (hnames : repeatedName? [] definitions = none)
    (hcycles : (Registry.mk (KeyMap.ofList (factTables.map fun table => (table.name, table)))
      (KeyMap.ofList (definitions.map fun metric => (metric.name, metric))) transforms).cycles = []) :
    build factTables definitions transforms = .ok {
        factTables := KeyMap.ofList (factTables.map fun table => (table.name, table))
        metrics := KeyMap.ofList (definitions.map fun metric => (metric.name, metric))
        transforms } := by
  rw [cycles] at hcycles
  rw [build, buildBy, hnames]
  dsimp only
  rw [hcycles]

theorem not_refersTo_self_of_build (h : build factTables definitions transforms = .ok registry)
    (name : String) : ¬ TransGen (RefersTo registry.metrics) name name := by
  intro hcycle
  have hname := contains_of_transGen hcycle
  have hscope : Graph.Scope (successors registry.metrics) registry.metrics.keys := scope_successors
  have hcomponents := Graph.findsComponents_components _ _ hscope
  exact (hcomponents.cyclesOf_eq_nil_iff hscope).mp (build_eq_ok h).2 name
    (KeyMap.mem_keys_iff_contains.mpr hname) (transGen_successors_of_refersTo hname hcycle)

theorem endsWithin_of_build (h : build factTables definitions transforms = .ok registry)
    (name : String) : EndsWithin registry.metrics (registry.metrics.size + 1) name :=
  endsWithin_of_trail (not_refersTo_self_of_build h) _ [] name List.nodup_nil (by simp) (by simp)

end Build

end MetricLayer.Registry
