import MetricLayer.Proofs.KeyMap.Lookup
import MetricLayer.Proofs.Registry.Search
import Mathlib.Data.List.Nodup

/-!
# Groups of names that reach one another

A cycle never leaves its group, so the search for a closed path may be kept within the group: it
finds one in every group that has a cycle. No cycle is lost on the way, whatever the order of the
groups and of the names in them, and a report without cycles is one of a graph without cycles.
-/

namespace MetricLayer.Graph

open Relation

/-- Each of the names reaches the other. -/
def Mutual (next : Successors) (name other : String) : Prop :=
  ReflTransGen (Edge next) name other ∧ ReflTransGen (Edge next) other name

/-- The groups are the strongly connected components of the graph, each name in one of them. -/
structure Components (next : Successors) (names : List String) (groups : List (List String)) :
    Prop where
  nonempty : ∀ group ∈ groups, group ≠ []
  nodup : groups.flatten.Nodup
  mem_iff : ∀ name, name ∈ groups.flatten ↔ name ∈ names
  mutual_iff : ∀ group ∈ groups, ∀ name ∈ group, ∀ other ∈ names,
    other ∈ group ↔ Mutual next name other

/-- The grouping finds the components of every graph whose names are given once each. -/
def Grouping.FindsComponents (grouping : Grouping) : Prop :=
  ∀ next names, Scope next names → Components next names (grouping next names)

variable {next : Successors} {names group : List String} {groups : List (List String)}
  {name other : String}

namespace Mutual

theorem symm (h : Mutual next name other) : Mutual next other name := ⟨h.2, h.1⟩

theorem trans {third : String} (h : Mutual next name other) (hother : Mutual next other third) :
    Mutual next name third :=
  ⟨h.1.trans hother.1, hother.2.trans h.2⟩

theorem transGen (h : Mutual next name other) (hne : name ≠ other) :
    TransGen (Edge next) name other ∧ TransGen (Edge next) other name := by
  refine ⟨?_, ?_⟩
  · exact (reflTransGen_iff_eq_or_transGen.mp h.1).resolve_left hne.symm
  · exact (reflTransGen_iff_eq_or_transGen.mp h.2).resolve_left hne

theorem transGen_self (h : Mutual next name other) (hne : name ≠ other) :
    TransGen (Edge next) name name :=
  (h.transGen hne).1.trans (h.transGen hne).2

end Mutual

theorem edge_within_iff :
    Edge (within next group) name other ↔ Edge next name other ∧ other ∈ group := by
  rw [Edge, within, List.mem_filter, List.contains_iff_mem]
  rfl

theorem scope_within (hnodup : group.Nodup) : Scope (within next group) group where
  nodup := hnodup
  closed := fun _ _ _ hedge => (edge_within_iff.mp hedge).2

theorem transGen_of_within (h : TransGen (Edge (within next group)) name other) :
    TransGen (Edge next) name other := by
  have hedges : Edge (within next group) ≤ Edge next :=
    fun _ _ hedge => (edge_within_iff.mp hedge).1
  exact TransGen.mono hedges _ _ h

namespace Components

theorem mem_names (h : Components next names groups) (hgroup : group ∈ groups)
    (hname : name ∈ group) : name ∈ names :=
  (h.mem_iff name).mp (List.mem_flatten_of_mem hgroup hname)

theorem exists_group (h : Components next names groups) (hname : name ∈ names) :
    ∃ group ∈ groups, name ∈ group :=
  List.mem_flatten.mp ((h.mem_iff name).mpr hname)

theorem nodup_group (h : Components next names groups) (hgroup : group ∈ groups) : group.Nodup :=
  (List.nodup_flatten.mp h.nodup).1 group hgroup

theorem transGen_within (h : Components next names groups) (hscope : Scope next names)
    (hgroup : group ∈ groups) (hname : name ∈ group) (hcycle : TransGen (Edge next) name name) :
    TransGen (Edge (within next group)) name name := by
  have hstay : ∀ {passed}, TransGen (Edge next) passed name → passed ∈ group →
      TransGen (Edge (within next group)) passed name := by
    intro passed hback
    induction hback using TransGen.head_induction_on with
    | single hedge => exact fun _ => .single (edge_within_iff.mpr ⟨hedge, hname⟩)
    | @head passed onward hedge hrest ih =>
        intro hpassed
        have hnames := hscope.closed passed (h.mem_names hgroup hpassed) onward hedge
        have hmutual : Mutual next passed onward := by
          refine ⟨.single hedge, hrest.to_reflTransGen.trans ?_⟩
          exact ((h.mutual_iff group hgroup name hname passed
            (h.mem_names hgroup hpassed)).mp hpassed).1
        have honward := (h.mutual_iff group hgroup passed hpassed onward hnames).mpr hmutual
        exact .head (edge_within_iff.mpr ⟨hedge, honward⟩) (ih honward)
  exact hstay hcycle hname

theorem isCyclic_iff (h : Components next names groups) (hscope : Scope next names)
    (hgroup : group ∈ groups) (hname : name ∈ group) :
    isCyclic next group = true ↔ TransGen (Edge next) name name := by
  match group, hgroup, hname with
  | [single], hgroup, hname =>
      obtain rfl := List.mem_singleton.mp hname
      rw [isCyclic, List.contains_iff_mem]
      refine ⟨fun hedge => .single hedge, fun hcycle => ?_⟩
      obtain ⟨_, hedge, _⟩ := TransGen.head'_iff.mp (h.transGen_within hscope hgroup hname hcycle)
      obtain ⟨hedge, hsame⟩ := edge_within_iff.mp hedge
      obtain rfl := List.mem_singleton.mp hsame
      exact hedge
  | first :: second :: rest, hgroup, hname =>
      refine iff_of_true (by simp [isCyclic]) ?_
      obtain ⟨other, hother, hne⟩ : ∃ other ∈ first :: second :: rest, name ≠ other := by
        by_cases hfirst : name = first
        · have hnodup := (List.nodup_cons.mp (h.nodup_group hgroup)).1
          exact ⟨second, by simp, fun hsecond => hnodup (by simp [← hfirst, hsecond])⟩
        · exact ⟨first, by simp, hfirst⟩
      have hmutual := h.mutual_iff _ hgroup name hname other (h.mem_names hgroup hother)
      exact (hmutual.mp hother).transGen_self hne

/-- The search within a group succeeds just when the group has a cycle. -/
theorem isSome_closedPath?_iff (h : Components next names groups) (hscope : Scope next names)
    (hgroup : group ∈ groups) :
    (closedPath? next group).isSome = true ↔ isCyclic next group = true := by
  have hnonempty : KeyMap.sortNames group ≠ [] := by
    obtain ⟨name, hname⟩ := List.exists_mem_of_ne_nil group (h.nonempty group hgroup)
    exact List.ne_nil_of_mem (KeyMap.mem_sortNames_iff.mpr hname)
  obtain ⟨start, rest, hsorted⟩ := List.exists_cons_of_ne_nil hnonempty
  have hstart : start ∈ group := by
    rw [← KeyMap.mem_sortNames_iff, hsorted]
    exact List.mem_cons_self
  rw [closedPath?, hsorted, List.head?_cons, Option.bind_eq_bind, Option.bind_some,
    h.isCyclic_iff hscope hgroup hstart]
  rw [show (path? (within next group) group.length start start).isSome =
    reaches (within next group) group.length start start from rfl,
    reaches_iff (scope_within (h.nodup_group hgroup)) hstart]
  exact ⟨transGen_of_within, h.transGen_within hscope hgroup hstart⟩

end Components

theorem insertPath_perm (path : List String) (paths : List (List String)) :
    (insertPath path paths).Perm (path :: paths) := by
  induction paths with
  | nil => exact .refl _
  | cons head rest ih =>
      rw [insertPath]
      split
      · exact .refl _
      · exact (ih.cons head).trans (.swap path head rest)

theorem sortPaths_perm (paths : List (List String)) : (sortPaths paths).Perm paths := by
  induction paths with
  | nil => exact .refl _
  | cons path rest ih => exact (insertPath_perm path _).trans (ih.cons path)

theorem sortPaths_eq_nil_iff {paths : List (List String)} : sortPaths paths = [] ↔ paths = [] := by
  rw [← List.perm_nil, ← List.perm_nil, (sortPaths_perm paths).congr_left]

/-- Nothing is reported just when no name reaches itself. -/
theorem Components.cyclesOf_eq_nil_iff (h : Components next names groups)
    (hscope : Scope next names) :
    cyclesOf next groups = [] ↔ ∀ name ∈ names, ¬ TransGen (Edge next) name name := by
  rw [cyclesOf, sortPaths_eq_nil_iff, List.filterMap_eq_nil_iff]
  constructor
  · intro hnone name hname hcycle
    obtain ⟨group, hgroup, hmem⟩ := h.exists_group hname
    have hcyclic := (h.isCyclic_iff hscope hgroup hmem).mpr hcycle
    have hpath := (h.isSome_closedPath?_iff hscope hgroup).mpr hcyclic
    rw [hnone group (List.mem_filter.mpr ⟨hgroup, hcyclic⟩)] at hpath
    cases hpath
  · intro hacyclic group hgroup
    obtain ⟨hgroup, hcyclic⟩ := List.mem_filter.mp hgroup
    obtain ⟨name, hname⟩ := List.exists_mem_of_ne_nil group (h.nonempty group hgroup)
    exact absurd ((h.isCyclic_iff hscope hgroup hname).mp hcyclic)
      (hacyclic name (h.mem_names hgroup hname))

theorem mem_groupOf_iff (hscope : Scope next names) (hname : name ∈ names) :
    other ∈ groupOf next names name ↔ other ∈ names ∧ Mutual next name other := by
  have hreaches : ∀ {start target}, start ∈ names →
      (reaches next names.length start target = true ↔ TransGen (Edge next) start target) :=
    fun hstart => reaches_iff hscope hstart
  unfold groupOf
  split
  · rename_i hcycle
    rw [List.mem_filter, Bool.and_eq_true]
    refine and_congr_right fun hother => ?_
    rw [hreaches hname, hreaches hother]
    refine ⟨fun h => ⟨h.1.to_reflTransGen, h.2.to_reflTransGen⟩, fun h => ?_⟩
    by_cases hne : name = other
    · subst hne
      exact ⟨(hreaches hname).mp hcycle, (hreaches hname).mp hcycle⟩
    · exact h.transGen hne
  · rename_i hcycle
    rw [List.mem_singleton]
    constructor
    · rintro rfl
      exact ⟨hname, .refl, .refl⟩
    · rintro ⟨_, hmutual⟩
      by_contra hne
      exact hcycle ((hreaches hname).mpr (hmutual.transGen_self (Ne.symm hne)))

theorem mem_groupOf_self (hscope : Scope next names) (hname : name ∈ names) :
    name ∈ groupOf next names name :=
  (mem_groupOf_iff hscope hname).mpr ⟨hname, .refl, .refl⟩

/-- A group is the same list for all of its names. -/
theorem groupOf_eq_of_mutual (hscope : Scope next names) (hname : name ∈ names)
    (hother : other ∈ names) (h : Mutual next name other) :
    groupOf next names name = groupOf next names other := by
  by_cases hne : name = other
  · rw [hne]
  · have hfilter : ∀ {start}, start ∈ names → TransGen (Edge next) start start →
        groupOf next names start = names.filter fun third =>
          decide (third ∈ groupOf next names start) := by
      intro start hstart hcycle
      have hcycle := (reaches_iff hscope hstart).mpr hcycle
      conv_lhs => rw [groupOf, if_pos hcycle]
      refine List.filter_congr fun third hthird => ?_
      rw [Bool.eq_iff_iff, decide_eq_true_iff, groupOf, if_pos hcycle, List.mem_filter]
      exact (and_iff_right hthird).symm
    rw [hfilter hname (h.transGen_self hne), hfilter hother (h.symm.transGen_self (Ne.symm hne))]
    refine List.filter_congr fun third hthird => ?_
    rw [decide_eq_decide, mem_groupOf_iff hscope hname, mem_groupOf_iff hscope hother]
    exact and_congr_right fun _ => ⟨h.symm.trans, h.trans⟩

theorem nodup_groupOf (hnodup : names.Nodup) : (groupOf next names name).Nodup := by
  unfold groupOf
  split
  · exact hnodup.filter _
  · exact List.nodup_singleton name

theorem mem_components_iff :
    group ∈ components next names ↔
      ∃ name ∈ names, groupOf next names name = group ∧ group.head? = some name := by
  rw [components, List.mem_filterMap]
  refine exists_congr fun name => and_congr_right fun _ => ?_
  dsimp only
  split
  · rename_i hhead
    rw [Option.some.injEq]
    exact ⟨fun h => ⟨h, h ▸ hhead⟩, fun h => h.1⟩
  · rename_i hhead
    refine iff_of_false (by simp) ?_
    rintro ⟨rfl, hfirst⟩
    exact hhead hfirst

/-- Two groups with a name in common are the group of one name. -/
theorem pairwise_disjoint_components (hscope : Scope next names) :
    (components next names).Pairwise List.Disjoint := by
  rw [components, List.pairwise_filterMap]
  refine hscope.nodup.pairwise_of_forall_ne fun first hfirst second hsecond hne => ?_
  dsimp only
  intro group hgroup others hothers third hthird hmem
  split at hgroup
  · rename_i hhead
    split at hothers
    · rename_i hhead'
      obtain rfl := Option.some.inj hgroup
      obtain rfl := Option.some.inj hothers
      have hmutual := ((mem_groupOf_iff hscope hfirst).mp hthird).2.trans
        ((mem_groupOf_iff hscope hsecond).mp hmem).2.symm
      rw [groupOf_eq_of_mutual hscope hfirst hsecond hmutual, hhead'] at hhead
      exact hne (Option.some.inj hhead).symm
    · cases hothers
  · cases hgroup

theorem findsComponents_components : Grouping.FindsComponents components := by
  intro next names hscope
  have hgroups : ∀ group ∈ components next names, ∃ name ∈ names,
      group = groupOf next names name := by
    intro group hgroup
    obtain ⟨name, hname, rfl, _⟩ := mem_components_iff.mp hgroup
    exact ⟨name, hname, rfl⟩
  refine ⟨?_, ?_, ?_, ?_⟩
  · intro group hgroup
    obtain ⟨name, hname, rfl⟩ := hgroups group hgroup
    exact List.ne_nil_of_mem (mem_groupOf_self hscope hname)
  · refine List.nodup_flatten.mpr ⟨fun group hgroup => ?_, pairwise_disjoint_components hscope⟩
    obtain ⟨name, _, rfl⟩ := hgroups group hgroup
    exact nodup_groupOf hscope.nodup
  · intro name
    rw [List.mem_flatten]
    constructor
    · rintro ⟨group, hgroup, hmem⟩
      obtain ⟨first, hfirst, rfl⟩ := hgroups group hgroup
      exact ((mem_groupOf_iff hscope hfirst).mp hmem).1
    · intro hname
      have hself := mem_groupOf_self hscope hname
      obtain ⟨first, rest, hgroup⟩ := List.exists_cons_of_ne_nil (List.ne_nil_of_mem hself)
      have hmem : first ∈ groupOf next names name := hgroup ▸ List.mem_cons_self
      obtain ⟨hfirst, hmutual⟩ := (mem_groupOf_iff hscope hname).mp hmem
      refine ⟨groupOf next names name, mem_components_iff.mpr ⟨first, hfirst, ?_, ?_⟩, hself⟩
      · exact (groupOf_eq_of_mutual hscope hname hfirst hmutual).symm
      · rw [hgroup, List.head?_cons]
  · intro group hgroup name hmem other hother
    obtain ⟨first, hfirst, rfl⟩ := hgroups group hgroup
    have hmutual := ((mem_groupOf_iff hscope hfirst).mp hmem).2
    rw [mem_groupOf_iff hscope hfirst, and_iff_right hother]
    exact ⟨hmutual.symm.trans, hmutual.trans⟩

end MetricLayer.Graph
