import MetricLayer.Proofs.Registry.Acceptance
import MetricLayer.Proofs.Registry.ClosedPaths
import Mathlib.Data.List.Sort

/-!
# Which cycles are reported

`CycleReport` says what a report on the cycles of a graph is without mention of how it was made: one
path for each component with a cycle, the least one from the first name of the component, in order.
A graph has one such report only, so no order of components or of definitions shows in it.
-/

namespace MetricLayer.Graph

open Relation

/-- The least closed path from the first name of each component that has a cycle, in lexical
order. -/
structure CycleReport (step : String → String → Prop) (report : List (List String)) : Prop where
  sorted : report.Pairwise (List.Lex (· < ·))
  least : ∀ path ∈ report, ∃ start, Leads step start ∧ LeastCycle step start path
  unique : ∀ name, TransGen step name name → ∃! path, path ∈ report ∧
    ∃ member ∈ path, ReflTransGen step name member ∧ ReflTransGen step member name

variable {step : String → String → Prop} {start name : String} {path : List String}

namespace CycleReport

variable {report other : List (List String)}

theorem mem_iff (h : CycleReport step report) :
    path ∈ report ↔ ∃ start, Leads step start ∧ LeastCycle step start path := by
  refine ⟨h.least path, ?_⟩
  rintro ⟨start, hleads, hpath⟩
  obtain ⟨held, ⟨hheld, member, hmember, hreach, hback⟩, -⟩ := h.unique start hleads.cyclic
  obtain ⟨first, hfirst, hleast⟩ := h.least held hheld
  obtain ⟨hthere, hhere⟩ := hleast.toClosedPath.reach_start hmember hreach hback
  obtain rfl := hleads.eq_of_mutual hfirst hthere hhere
  exact hpath.unique hleast ▸ hheld

theorem eq (h : CycleReport step report) (hother : CycleReport step other) : report = other := by
  let lexical : List String → List String → Prop := List.Lex (· < ·)
  have hanti : Std.Antisymm lexical :=
    ⟨fun _ _ hless hgreater => absurd hgreater (List.lt_asymm hless)⟩
  have hirrefl : Std.Irrefl lexical := ⟨fun path => List.lt_irrefl path⟩
  exact h.sorted.eq_of_mem_iff hother.sorted fun path => h.mem_iff.trans hother.mem_iff.symm

/-- The first path of a report starts at the first of all names that are on a cycle. -/
theorem head_least {rest : List (List String)} (h : CycleReport step (path :: rest)) :
    ∃ start, TransGen step start start ∧ (∀ name, TransGen step name name → start ≤ name) ∧
      LeastCycle step start path := by
  obtain ⟨start, hleads, hpath⟩ := h.least path List.mem_cons_self
  refine ⟨start, hleads.cyclic, fun name hname => ?_, hpath⟩
  obtain ⟨held, ⟨hheld, member, hmember, hreach, hback⟩, -⟩ := h.unique name hname
  obtain ⟨first, hfirst, hleast⟩ := h.least held hheld
  obtain ⟨hthere, hhere⟩ := hleast.toClosedPath.reach_start hmember hreach hback
  have hbefore : first ≤ name := hfirst.least name hhere hthere
  refine le_trans ?_ hbefore
  rcases List.mem_cons.mp hheld with rfl | hlater
  · obtain ⟨_, rfl⟩ := hpath.toClosedPath.exists_middle
    exact (Option.some.inj hleast.starts).le
  · have hless := List.rel_of_pairwise_cons h.sorted hlater
    obtain ⟨_, rfl⟩ := hpath.toClosedPath.exists_middle
    obtain ⟨_, rfl⟩ := hleast.toClosedPath.exists_middle
    cases hless with
    | cons _ => exact le_refl _
    | rel hless => exact hless.le

end CycleReport

variable {paths : List (List String)}

theorem pairwise_insertPath (hsorted : paths.Pairwise (List.Lex (· < ·))) (hnew : path ∉ paths) :
    (insertPath path paths).Pairwise (List.Lex (· < ·)) := by
  induction paths with
  | nil => exact List.pairwise_singleton _ _
  | cons head rest ih =>
      obtain ⟨hhead, hrest⟩ := List.pairwise_cons.mp hsorted
      rw [insertPath]
      split
      · rename_i hless
        refine List.pairwise_cons.mpr ⟨fun other hother => ?_, hsorted⟩
        rcases List.mem_cons.mp hother with rfl | hother
        · exact hless
        · exact List.lt_trans hless (hhead other hother)
      · rename_i hnot
        refine List.pairwise_cons.mpr ⟨fun other hother => ?_,
          ih hrest fun hmem => hnew (List.mem_cons_of_mem _ hmem)⟩
        rcases List.mem_cons.mp ((insertPath_perm path rest).mem_iff.mp hother) with rfl | hother
        · rcases lt_trichotomy other head with hless | rfl | hgreater
          · exact absurd hless hnot
          · exact absurd List.mem_cons_self hnew
          · exact hgreater
        · exact hhead other hother

theorem pairwise_sortPaths (hnodup : paths.Nodup) :
    (sortPaths paths).Pairwise (List.Lex (· < ·)) := by
  induction paths with
  | nil => exact .nil
  | cons path rest ih =>
      obtain ⟨hnew, hrest⟩ := List.nodup_cons.mp hnodup
      exact pairwise_insertPath (ih hrest) fun hmem =>
        hnew ((sortPaths_perm rest).mem_iff.mp hmem)

variable {next : Successors} {names group : List String} {groups : List (List String)}

theorem mem_cyclesOf_iff :
    path ∈ cyclesOf next groups ↔
      ∃ group ∈ groups, isCyclic next group = true ∧ closedPath? next group = some path := by
  rw [cyclesOf, (sortPaths_perm _).mem_iff, List.mem_filterMap]
  simp only [List.mem_filter, and_assoc]

namespace Components

theorem pairwise_cyclesOf (h : Components next names groups) (hscope : Scope next names)
    (hsorted : ∀ name, (next name).Pairwise (· < ·)) :
    (cyclesOf next groups).Pairwise (List.Lex (· < ·)) := by
  refine pairwise_sortPaths ?_
  have hdisjoint : (groups.filter (isCyclic next)).Pairwise List.Disjoint :=
    (List.nodup_flatten.mp h.nodup).2.filter _
  refine List.pairwise_filterMap.mpr (hdisjoint.imp_of_mem ?_)
  intro first second hfirst hsecond hdisjoint path hpath other hother hsame
  obtain ⟨start, hstart, -, hleast⟩ :=
    h.exists_leads hscope hsorted (List.mem_filter.mp hfirst).1 hpath
  obtain ⟨start', hstart', -, hleast'⟩ :=
    h.exists_leads hscope hsorted (List.mem_filter.mp hsecond).1 hother
  obtain rfl : start = start' :=
    Option.some.inj (hleast.starts.symm.trans (hsame ▸ hleast'.starts))
  exact hdisjoint hstart hstart'

theorem cycleReport (h : Components next names groups) (hscope : Scope next names)
    (hsorted : ∀ name, (next name).Pairwise (· < ·))
    (hdomain : ∀ name other, Edge next name other → name ∈ names) :
    CycleReport (Edge next) (cyclesOf next groups) where
  sorted := h.pairwise_cyclesOf hscope hsorted
  least := by
    intro path hmem
    obtain ⟨group, hgroup, -, hpath⟩ := mem_cyclesOf_iff.mp hmem
    obtain ⟨start, -, hleads, hleast⟩ := h.exists_leads hscope hsorted hgroup hpath
    exact ⟨start, hleads, hleast⟩
  unique := by
    intro name hcycle
    obtain ⟨_, hedge, _⟩ := TransGen.head'_iff.mp hcycle
    obtain ⟨group, hgroup, hname⟩ := h.exists_group (hdomain name _ hedge)
    have hcyclic := (h.isCyclic_iff hscope hgroup hname).mpr hcycle
    obtain ⟨path, hpath⟩ :=
      Option.isSome_iff_exists.mp ((h.isSome_closedPath?_iff hscope hgroup).mpr hcyclic)
    obtain ⟨start, hstart, hleads, hleast⟩ := h.exists_leads hscope hsorted hgroup hpath
    have hmutual := (h.mutual_iff group hgroup name hname start (h.mem_names hgroup hstart)).mp
      hstart
    refine ⟨path, ⟨mem_cyclesOf_iff.mpr ⟨group, hgroup, hcyclic, hpath⟩, start,
      hleast.toClosedPath.start_mem, hmutual⟩, ?_⟩
    rintro other ⟨hother, member, hmember, hreach, hback⟩
    obtain ⟨group', hgroup', -, hpath'⟩ := mem_cyclesOf_iff.mp hother
    obtain ⟨start', -, hleads', hleast'⟩ := h.exists_leads hscope hsorted hgroup' hpath'
    obtain ⟨hthere, hhere⟩ := hleast'.toClosedPath.reach_start hmember hreach hback
    obtain rfl := hleads.eq_of_mutual hleads' (hmutual.2.trans hthere) (hhere.trans hmutual.1)
    exact hleast'.unique hleast

end Components

end MetricLayer.Graph

namespace MetricLayer.Registry

open Relation

variable {definitions other : List Metric}

theorem pairwise_successors (metrics : KeyMap Metric) (name : String) :
    (successors metrics name).Pairwise (· < ·) := by
  unfold successors
  split
  · exact .nil
  · exact KeyMap.keys_sorted _

theorem Uses.mono (hsub : definitions ⊆ other) {name target : String}
    (h : Uses definitions name target) : Uses other name target := by
  cases h with
  | derived hmetric hkind hother huses =>
      exact .derived (hsub hmetric) hkind (hsub hother) huses
  | transform hmetric hkind hother huses =>
      exact .transform (hsub hmetric) hkind (hsub hother) huses

theorem uses_eq_of_perm (h : definitions.Perm other) : Uses definitions = Uses other := by
  funext name target
  exact propext ⟨.mono h.subset, .mono h.symm.subset⟩

theorem cyclesBy_report {grouping : Graph.Grouping} (hgrouping : grouping.FindsComponents)
    (hnames : (definitions.map Metric.name).Nodup) (factTables : KeyMap FactTable)
    (transforms : Transforms) :
    Graph.CycleReport (Uses definitions)
      ((Registry.mk factTables (byName definitions) transforms).cyclesBy grouping) := by
  rw [← edge_byName_eq_uses hnames, cyclesBy]
  refine (hgrouping _ _ scope_successors).cycleReport scope_successors (pairwise_successors _) ?_
  intro name target hedge
  exact KeyMap.mem_keys_iff_contains.mpr (edge_successors_iff.mp hedge).1.contains

/-- Building refuses definitions with the first path of the only report there is on them. -/
theorem buildBy_of_report {grouping : Graph.Grouping} (hgrouping : grouping.FindsComponents)
    (hnames : (definitions.map Metric.name).Nodup) {report : List (List String)}
    (hreport : Graph.CycleReport (Uses definitions) report) {name : String}
    (hcycle : TransGen (Uses definitions) name name) (factTables : List FactTable)
    (transforms : Transforms) :
    ∃ path rest, report = path :: rest ∧
      buildBy grouping factTables definitions transforms = .error (.cyclicDefinition path) := by
  obtain ⟨held, ⟨hheld, _⟩, _⟩ := hreport.unique name hcycle
  obtain ⟨path, rest, rfl⟩ := List.exists_cons_of_ne_nil (List.ne_nil_of_mem hheld)
  refine ⟨path, rest, rfl, ?_⟩
  rw [buildBy_of_nodup hnames]
  dsimp only
  rw [(cyclesBy_report hgrouping hnames _ transforms).eq hreport]

/-- **Which cycle is reported.** With any grouping of names into strongly connected components, a
registry with a cycle is refused with the least closed path from the first of all names that are on
one, and its report has the least closed path from the first name of each component with a cycle,
in order and once each. Neither the grouping nor the order of definitions shows in it. -/
theorem cyclicDefinition_least {grouping : Graph.Grouping} (hgrouping : grouping.FindsComponents)
    (factTables : List FactTable) (definitions : List Metric) (transforms : Transforms)
    (hnames : (definitions.map Metric.name).Nodup)
    (hcycle : ∃ metric ∈ definitions, TransGen (Uses definitions) metric.name metric.name) :
    let uses := Uses definitions
    let registry : Registry :=
      ⟨KeyMap.ofList (factTables.map fun table => (table.name, table)), byName definitions,
        transforms⟩
    let outcome := buildBy grouping factTables definitions transforms
    (∃ start path, outcome = .error (.cyclicDefinition path) ∧ TransGen uses start start ∧
        (∀ name, TransGen uses name name → start ≤ name) ∧ Graph.LeastCycle uses start path) ∧
      Graph.CycleReport uses (registry.cyclesBy grouping) ∧
      ∀ regrouping : Graph.Grouping, regrouping.FindsComponents →
        registry.cyclesBy regrouping = registry.cyclesBy grouping ∧
        ∀ reordered, reordered.Perm definitions →
          buildBy regrouping factTables reordered transforms = outcome := by
  intro uses registry outcome
  obtain ⟨metric, _, hcycle⟩ := hcycle
  have hreport : Graph.CycleReport (Uses definitions) (registry.cyclesBy grouping) :=
    cyclesBy_report hgrouping hnames _ _
  obtain ⟨path, rest, hpath, houtcome⟩ :=
    buildBy_of_report hgrouping hnames hreport hcycle factTables transforms
  refine ⟨?_, hreport, fun regrouping hregrouping => ⟨?_, fun reordered hperm => ?_⟩⟩
  · obtain ⟨start, hstart, hfirst, hleast⟩ := (hpath ▸ hreport).head_least
    exact ⟨start, path, houtcome, hstart, hfirst, hleast⟩
  · exact (cyclesBy_report hregrouping hnames _ _).eq hreport
  · have hnames' : (reordered.map Metric.name).Nodup := (hperm.map _).nodup_iff.mpr hnames
    have huses : Uses definitions = Uses reordered := (uses_eq_of_perm hperm).symm
    have hreport' := huses ▸ hreport
    obtain ⟨path', rest', hpath', houtcome'⟩ :=
      buildBy_of_report hregrouping hnames' hreport' (huses ▸ hcycle) factTables transforms
    obtain rfl := (List.cons.inj (hpath.symm.trans hpath')).1
    exact houtcome'.trans houtcome.symm

/-- One component here has a cycle of two names, and another one a step from its name to itself. -/
theorem cyclicDefinition_least_looped :
    ([growth, shifted, looped].map Metric.name).Nodup ∧
      ∃ start path, build [] [growth, shifted, looped] (.builtin .standard) =
        .error (.cyclicDefinition path) ∧
        Graph.LeastCycle (Uses [growth, shifted, looped]) start path := by
  have hdown : Uses [growth, shifted, looped] growth.name shifted.name :=
    .derived List.mem_cons_self rfl (by simp) List.mem_cons_self
  have hup : Uses [growth, shifted, looped] shifted.name growth.name :=
    .transform (by simp) rfl List.mem_cons_self rfl
  have hnames : ([growth, shifted, looped].map Metric.name).Nodup := by decide
  obtain ⟨⟨start, path, hpath, _, _, hleast⟩, _⟩ :=
    cyclicDefinition_least Graph.findsComponents_components [] [growth, shifted, looped]
      (.builtin .standard) hnames ⟨growth, List.mem_cons_self, .head hdown (.single hup)⟩
  exact ⟨hnames, start, path, hpath, hleast⟩

end MetricLayer.Registry
