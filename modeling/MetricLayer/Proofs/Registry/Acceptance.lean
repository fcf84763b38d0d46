import MetricLayer.Proofs.Registry.Depth

/-!
# Which definitions make a registry

Building refuses a name that is taken and a metric that leads back to itself, and nothing else. Both
conditions are stated about the list of definitions: `FirstTaken` points at the first metric that
comes too late, and `Uses` relates a defined metric to a defined metric that its own definition
names.
-/

namespace MetricLayer.Registry

open Relation

/-- The first of the metrics whose name an earlier one has taken has that name. -/
def FirstTaken (definitions : List Metric) (name : String) : Prop :=
  ∃ before metric after, definitions = before ++ metric :: after ∧ metric.name = name ∧
    (before.map Metric.name).Nodup ∧ name ∈ before.map Metric.name

inductive Uses (definitions : List Metric) : String → String → Prop where
  | derived {metric other : Metric} {derived : DerivedMetric} (hmetric : metric ∈ definitions)
      (hkind : metric.kind = .derived derived) (hother : other ∈ definitions)
      (huses : other.name ∈ derived.dependsOn) : Uses definitions metric.name other.name
  | transform {metric other : Metric} {transform : TransformMetric}
      (hmetric : metric ∈ definitions) (hkind : metric.kind = .transform transform)
      (hother : other ∈ definitions) (huses : other.name = transform.base) :
      Uses definitions metric.name other.name

variable {definitions : List Metric} {name other : String}

/-- The names taken so far stand behind those of the metrics passed on the way. -/
theorem repeatedName?_eq_some_iff {taken : List String} (htaken : taken.Nodup) :
    repeatedName? taken definitions = some name ↔
      ∃ before metric after, definitions = before ++ metric :: after ∧ metric.name = name ∧
        ((before.map Metric.name).reverse ++ taken).Nodup ∧
          name ∈ (before.map Metric.name).reverse ++ taken := by
  induction definitions generalizing taken with
  | nil => simp [repeatedName?]
  | cons head rest ih =>
      rw [repeatedName?]
      by_cases hhead : head.name ∈ taken
      · rw [if_pos (List.contains_iff_mem.mpr hhead)]
        constructor
        · intro h
          exact ⟨[], head, rest, rfl, Option.some.inj h, htaken, Option.some.inj h ▸ hhead⟩
        · rintro ⟨before, metric, after, hsplit, hname, hfresh, -⟩
          cases before with
          | nil => rw [(List.cons.inj hsplit).1, hname]
          | cons first before =>
              rw [← (List.cons.inj hsplit).1, List.map_cons, List.reverse_cons,
                List.append_assoc] at hfresh
              exact absurd hhead (List.nodup_cons.mp (List.nodup_append.mp hfresh).2.1).1
      · rw [if_neg (by simpa using hhead), ih (List.nodup_cons.mpr ⟨hhead, htaken⟩)]
        constructor
        · rintro ⟨before, metric, after, rfl, hname, hfresh, hmem⟩
          refine ⟨head :: before, metric, after, rfl, hname, ?_, ?_⟩
          · simpa using hfresh
          · simpa using hmem
        · rintro ⟨before, metric, after, hsplit, hname, hfresh, hmem⟩
          cases before with
          | nil =>
              rw [(List.cons.inj hsplit).1, hname] at hhead
              exact absurd hmem hhead
          | cons first before =>
              obtain ⟨rfl, rfl⟩ := List.cons.inj hsplit
              refine ⟨before, metric, after, rfl, hname, ?_, ?_⟩
              · simpa using hfresh
              · simpa using hmem

theorem repeatedName?_eq_none_iff {taken : List String} (htaken : taken.Nodup) :
    repeatedName? taken definitions = none ↔
      ((definitions.map Metric.name).reverse ++ taken).Nodup := by
  induction definitions generalizing taken with
  | nil => simpa [repeatedName?] using htaken
  | cons head rest ih =>
      rw [repeatedName?]
      by_cases hhead : head.name ∈ taken
      · rw [if_pos (List.contains_iff_mem.mpr hhead), List.map_cons, List.reverse_cons,
          List.append_assoc]
        refine iff_of_false (by simp) fun hnodup => ?_
        exact (List.nodup_cons.mp (List.nodup_append.mp hnodup).2.1).1 hhead
      · rw [if_neg (by simpa using hhead), ih (List.nodup_cons.mpr ⟨hhead, htaken⟩)]
        simp

theorem repeatedName?_nil_eq_some_iff :
    repeatedName? [] definitions = some name ↔ FirstTaken definitions name := by
  rw [repeatedName?_eq_some_iff List.nodup_nil, FirstTaken]
  simp

theorem repeatedName?_nil_eq_none_iff :
    repeatedName? [] definitions = none ↔ (definitions.map Metric.name).Nodup := by
  rw [repeatedName?_eq_none_iff List.nodup_nil]
  simp

theorem exists_firstTaken_iff :
    (∃ name, FirstTaken definitions name) ↔ ¬ (definitions.map Metric.name).Nodup := by
  simp only [← repeatedName?_nil_eq_some_iff, ← repeatedName?_nil_eq_none_iff]
  exact Option.ne_none_iff_exists'.symm

def byName (definitions : List Metric) : KeyMap Metric :=
  KeyMap.ofList (definitions.map fun metric => (metric.name, metric))

section Named

variable (hnames : (definitions.map Metric.name).Nodup)

include hnames

theorem get?_byName_iff {metric : Metric} :
    (byName definitions).get? name = some metric ↔ metric ∈ definitions ∧ metric.name = name := by
  have hentries : ((definitions.map fun metric => (metric.name, metric)).map (·.1)).Nodup := by
    rwa [List.map_map]
  rw [byName, KeyMap.get?_ofList, KeyMap.lookup_reverse_of_nodup hentries]
  constructor
  · intro h
    obtain ⟨held, hheld, heq⟩ := List.mem_map.mp (KeyMap.mem_of_lookup_eq_some h)
    obtain ⟨rfl, rfl⟩ := Prod.mk.inj heq
    exact ⟨hheld, rfl⟩
  · rintro ⟨hmetric, rfl⟩
    exact KeyMap.lookup_of_mem_of_nodup hentries (List.mem_map_of_mem hmetric)

theorem contains_byName_iff :
    (byName definitions).contains name = true ↔ ∃ metric ∈ definitions, metric.name = name := by
  rw [KeyMap.contains_iff]
  exact exists_congr fun metric => get?_byName_iff hnames

theorem edge_byName_eq_uses :
    Graph.Edge (successors (byName definitions)) = Uses definitions := by
  funext name other
  refine propext ?_
  rw [edge_successors_iff, contains_byName_iff hnames]
  constructor
  · rintro ⟨⟨metric, hfound, hdependency⟩, target, htarget, rfl⟩
    obtain ⟨hmetric, rfl⟩ := (get?_byName_iff hnames).mp hfound
    clear hfound
    unfold Metric.dependencies at hdependency
    split at hdependency
    · rename_i hkind
      exact .derived hmetric hkind htarget hdependency
    · rename_i hkind
      exact .transform hmetric hkind htarget (List.mem_singleton.mp hdependency)
    · cases hdependency
  · intro huses
    cases huses with
    | @derived metric target derived hmetric hkind htarget huses =>
        refine ⟨⟨metric, (get?_byName_iff hnames).mpr ⟨hmetric, rfl⟩, ?_⟩, target, htarget, rfl⟩
        rw [Metric.dependencies, hkind]
        exact huses
    | @transform metric target transform hmetric hkind htarget huses =>
        refine ⟨⟨metric, (get?_byName_iff hnames).mpr ⟨hmetric, rfl⟩, ?_⟩, target, htarget, rfl⟩
        rw [Metric.dependencies, hkind]
        exact List.mem_singleton.mpr huses

/-- A registry reports no cycle just when no metric leads back to itself. -/
theorem cyclesBy_eq_nil_iff {grouping : Graph.Grouping} (hgrouping : grouping.FindsComponents)
    (factTables : KeyMap FactTable) (transforms : Transforms) :
    (Registry.mk factTables (byName definitions) transforms).cyclesBy grouping = [] ↔
      ∀ metric ∈ definitions, ¬ TransGen (Uses definitions) metric.name metric.name := by
  rw [cyclesBy, (hgrouping _ _ scope_successors).cyclesOf_eq_nil_iff scope_successors,
    edge_byName_eq_uses hnames]
  constructor
  · intro hacyclic metric hmetric
    refine hacyclic metric.name (KeyMap.mem_keys_iff_contains.mpr ?_)
    exact (contains_byName_iff hnames).mpr ⟨metric, hmetric, rfl⟩
  · intro hacyclic name hname
    obtain ⟨metric, hmetric, rfl⟩ :=
      (contains_byName_iff hnames).mp (KeyMap.mem_keys_iff_contains.mp hname)
    exact hacyclic metric hmetric

end Named

section Outcome

variable {grouping : Graph.Grouping} {factTables : List FactTable} {transforms : Transforms}

theorem buildBy_of_taken (h : FirstTaken definitions name) :
    buildBy grouping factTables definitions transforms = .error (.duplicateMetric name) := by
  rw [buildBy, repeatedName?_nil_eq_some_iff.mpr h]

theorem buildBy_of_nodup (hnames : (definitions.map Metric.name).Nodup) :
    buildBy grouping factTables definitions transforms =
      let registry : Registry :=
        ⟨KeyMap.ofList (factTables.map fun table => (table.name, table)), byName definitions,
          transforms⟩
      match registry.cyclesBy grouping with
      | [] => .ok registry
      | cycle :: _ => .error (.cyclicDefinition cycle) := by
  rw [buildBy, repeatedName?_nil_eq_none_iff.mpr hnames]
  rfl

theorem buildBy_of_cycle (hgrouping : grouping.FindsComponents)
    (hnames : (definitions.map Metric.name).Nodup)
    (hcycle : ∃ metric ∈ definitions, TransGen (Uses definitions) metric.name metric.name) :
    ∃ path, buildBy grouping factTables definitions transforms =
      .error (.cyclicDefinition path) := by
  rw [buildBy_of_nodup hnames]
  dsimp only
  split
  · rename_i hnil
    obtain ⟨metric, hmetric, hcycle⟩ := hcycle
    exact absurd hcycle ((cyclesBy_eq_nil_iff hnames hgrouping _ _).mp hnil metric hmetric)
  · rename_i path _ _
    exact ⟨path, rfl⟩

theorem buildBy_of_acyclic (hgrouping : grouping.FindsComponents)
    (hnames : (definitions.map Metric.name).Nodup)
    (hacyclic : ∀ metric ∈ definitions, ¬ TransGen (Uses definitions) metric.name metric.name) :
    ∃ registry, buildBy grouping factTables definitions transforms = .ok registry ∧
      registry.metrics = byName definitions := by
  rw [buildBy_of_nodup hnames]
  dsimp only
  rw [(cyclesBy_eq_nil_iff hnames hgrouping _ _).mpr hacyclic]
  exact ⟨_, rfl, rfl⟩

end Outcome

/-- **Which definitions make a registry.** With any grouping of names into strongly connected
components, a name that is taken is refused first, at the first metric that comes too late; then
definitions are refused if some metric reaches itself over metrics that are defined; all others make
a registry of just those metrics. -/
theorem buildBy_outcome_iff {grouping : Graph.Grouping} (hgrouping : grouping.FindsComponents)
    (factTables : List FactTable) (definitions : List Metric) (transforms : Transforms) :
    let outcome := buildBy grouping factTables definitions transforms
    let unique := (definitions.map Metric.name).Nodup
    let cyclic := ∃ metric ∈ definitions, TransGen (Uses definitions) metric.name metric.name
    ((∃ name, outcome = .error (.duplicateMetric name)) ↔ ¬ unique) ∧
      (∀ name, outcome = .error (.duplicateMetric name) ↔ FirstTaken definitions name) ∧
      ((∃ path, outcome = .error (.cyclicDefinition path)) ↔ unique ∧ cyclic) ∧
      ((∃ registry, outcome = .ok registry) ↔ unique ∧ ¬ cyclic) ∧
      ∀ registry, outcome = .ok registry → ∀ name metric,
        registry.metrics.get? name = some metric ↔ metric ∈ definitions ∧ metric.name = name := by
  intro outcome unique cyclic
  have htaken : ∀ name, FirstTaken definitions name → outcome = .error (.duplicateMetric name) :=
    fun name => buildBy_of_taken
  have hcycle : unique → cyclic → ∃ path, outcome = .error (.cyclicDefinition path) :=
    buildBy_of_cycle hgrouping
  have hok : unique → ¬ cyclic → ∃ registry, outcome = .ok registry ∧
      registry.metrics = byName definitions := by
    intro hunique hacyclic
    refine buildBy_of_acyclic hgrouping hunique fun metric hmetric hreach => ?_
    exact hacyclic ⟨metric, hmetric, hreach⟩
  by_cases hunique : unique
  · have hnone : ∀ name, ¬ FirstTaken definitions name := fun name htaken =>
      exists_firstTaken_iff.mp ⟨name, htaken⟩ hunique
    by_cases hcyclic : cyclic
    · obtain ⟨path, hpath⟩ := hcycle hunique hcyclic
      simp [hpath, hunique, hcyclic, hnone]
    · obtain ⟨registry, hregistry, hmetrics⟩ := hok hunique hcyclic
      simp [hregistry, hunique, hcyclic, hnone, hmetrics, get?_byName_iff hunique]
  · obtain ⟨first, hfirst⟩ := exists_firstTaken_iff.mpr hunique
    have houtcome := htaken first hfirst
    have hiff : ∀ name, FirstTaken definitions name ↔ name = first := by
      intro name
      refine ⟨fun hname => ?_, fun hname => hname ▸ hfirst⟩
      have hsame := (htaken name hname).symm.trans houtcome
      exact MetricError.duplicateMetric.inj (Except.error.inj hsame)
    simp [houtcome, hunique, hiff, eq_comm]

def growth : Metric := .derived "growth" ["shifted", "missing", "shifted"] fun _ _ _ => none

def shifted : Metric := .transform "shifted" "growth" "ytd"

def looped : Metric := .derived "looped" ["looped"] fun _ _ _ => none

/-- Two components have a cycle here, and a reference leads nowhere. -/
theorem buildBy_outcome_iff_looped :
    Graph.Grouping.FindsComponents Graph.components ∧
      ∃ path, build [] [growth, shifted, looped] (.builtin .standard) =
        .error (.cyclicDefinition path) := by
  refine ⟨Graph.findsComponents_components, ?_⟩
  have hdown : Uses [growth, shifted, looped] growth.name shifted.name :=
    .derived List.mem_cons_self rfl (by simp) List.mem_cons_self
  have hup : Uses [growth, shifted, looped] shifted.name growth.name :=
    .transform (by simp) rfl List.mem_cons_self rfl
  exact (buildBy_outcome_iff Graph.findsComponents_components [] _ _).2.2.1.mpr
    ⟨by decide, growth, List.mem_cons_self, .head hdown (.single hup)⟩

end MetricLayer.Registry
