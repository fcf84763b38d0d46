import MetricLayer.Proofs.Evaluation.Failures
import MetricLayer.Proofs.Registry.References

/-!
# No false alarms

Each entry of the list of dangling references comes from a metric whose definition names something
that is not there. Evaluating that metric cannot get past it: it stumbles over the entry, or over
something that comes before, under every context.
-/

namespace MetricLayer

namespace Evaluation

variable {α β : Type}

def Fails (outcome : Except MetricError α) : Prop := ∃ error, outcome = .error error

theorem fails_error (error : MetricError) : Fails (.error error : Except MetricError α) :=
  ⟨error, rfl⟩

theorem Fails.bind {outcome : Except MetricError α} (h : Fails outcome)
    (next : α → Except MetricError β) : Fails (outcome >>= next) := by
  obtain ⟨error, rfl⟩ := h
  exact fails_error error

theorem fails_bind {outcome : Except MetricError α} {next : α → Except MetricError β}
    (h : ∀ value, outcome = .ok value → Fails (next value)) : Fails (outcome >>= next) := by
  cases outcome with
  | error error => exact fails_error error
  | ok value => exact h value rfl

theorem fails_mapM {evaluate : α → Except MetricError β} {items : List α} {item : α}
    (hitem : item ∈ items) (h : Fails (evaluate item)) : Fails (items.mapM evaluate) := by
  induction items with
  | nil => cases hitem
  | cons head rest ih =>
      rw [List.mapM_cons]
      rcases List.mem_cons.mp hitem with rfl | hitem
      · exact h.bind _
      · exact fails_bind fun _ _ => (ih hitem).bind _

theorem SameFailure.fails {first : Except MetricError α} {second : Except MetricError β}
    (hsame : SameFailure first second) (h : Fails first) : Fails second := by
  obtain ⟨error, herror⟩ := h
  exact ⟨error, (hsame error).mp herror⟩

end Evaluation

namespace Registry

open Evaluation

/-- A definition of that kind refers to something that the registry does not hold. -/
inductive Dangles (registry : Registry) : MetricKind → MetricError → Prop where
  | table {fact : FactMetric} (h : registry.factTables.get? fact.factTable = none) :
      Dangles registry (.fact fact) (.unknownFactTable fact.factTable)
  | measure {fact : FactMetric} {table : FactTable}
      (htable : registry.factTables.get? fact.factTable = some table)
      (h : table.measures.get? fact.measure = none) :
      Dangles registry (.fact fact) (.unknownMeasure fact.factTable fact.measure)
  | dependency {derived : DerivedMetric} {name : String} (hname : name ∈ derived.dependsOn)
      (h : registry.metrics.get? name = none) :
      Dangles registry (.derived derived) (.unknownMetric name)
  | base {transform : TransformMetric} (h : registry.metrics.get? transform.base = none) :
      Dangles registry (.transform transform) (.unknownMetric transform.base)
  | transform {transform : TransformMetric}
      (h : registry.transforms.get? transform.transform = none) :
      Dangles registry (.transform transform) (.unknownTransform transform.transform)

/-- What the error calls unknown is unknown. A fact table is if it is not defined, or if it is not
loaded into the database, should there be one. -/
def Lacks (registry : Registry) (database : Option Database) : MetricError → Prop
  | .unknownMetric name => registry.metrics.get? name = none
  | .unknownTransform name => registry.transforms.get? name = none
  | .unknownMeasure factTable measure => ∃ table,
      registry.factTables.get? factTable = some table ∧ table.measures.get? measure = none
  | .unknownFactTable factTable => registry.factTables.get? factTable = none ∨
      ∃ loaded, database = some loaded ∧ loaded.get? factTable = none
  | _ => False

variable {registry : Registry} {database : Option Database} {metric : Metric}
  {error : MetricError}

theorem dangles_of_mem_danglingIn (h : error ∈ registry.danglingIn metric) :
    registry.Dangles metric.kind error := by
  rw [danglingIn] at h
  cases hkind : metric.kind with
  | fact fact =>
      rw [hkind] at h
      dsimp only at h
      split at h
      · rename_i htable
        obtain rfl := List.mem_singleton.mp h
        exact .table htable
      · rename_i table htable
        split at h
        · cases h
        · rename_i hmeasure
          obtain rfl := List.mem_singleton.mp h
          exact .measure htable (KeyMap.contains_eq_false_iff.mp (Bool.eq_false_iff.mpr hmeasure))
  | expression expression =>
      rw [hkind] at h
      cases h
  | derived derived =>
      rw [hkind] at h
      obtain ⟨name, hname, rfl⟩ := List.mem_map.mp h
      obtain ⟨hname, hunknown⟩ := List.mem_filter.mp hname
      exact .dependency hname (KeyMap.contains_eq_false_iff.mp (by simpa using hunknown))
  | transform transform =>
      rw [hkind] at h
      rcases List.mem_append.mp h with h | h
      · split at h
        · cases h
        · rename_i hbase
          obtain rfl := List.mem_singleton.mp h
          exact .base (KeyMap.contains_eq_false_iff.mp (Bool.eq_false_iff.mpr hbase))
      · split at h
        · cases h
        · rename_i hchange
          obtain rfl := List.mem_singleton.mp h
          exact .transform (KeyMap.contains_eq_false_iff.mp (Bool.eq_false_iff.mpr hchange))

theorem exists_of_unloadedIn (h : unloadedIn database metric = some error) :
    ∃ loaded table, database = some loaded ∧ metric.factTable? = some table ∧
      loaded.get? table = none ∧ error = .unknownFactTable table := by
  rw [unloadedIn] at h
  obtain ⟨loaded, hloaded, h⟩ := Option.bind_eq_some_iff.mp h
  obtain ⟨table, htable, h⟩ := Option.bind_eq_some_iff.mp h
  split at h
  · cases h
  · rename_i hcontains
    refine ⟨loaded, table, hloaded, htable, ?_, (Option.some.inj h).symm⟩
    exact KeyMap.contains_eq_false_iff.mp (Bool.eq_false_iff.mpr hcontains)

theorem Dangles.lacks {kind : MetricKind} (h : registry.Dangles kind error)
    (database : Option Database) : registry.Lacks database error := by
  cases h with
  | table h => exact .inl h
  | measure htable h => exact ⟨_, htable, h⟩
  | dependency _ h => exact h
  | base h => exact h
  | transform h => exact h

theorem lacks_of_mem_danglingReferences (h : error ∈ registry.danglingReferences database) :
    registry.Lacks database error := by
  obtain ⟨metric, _, hdangling | hunloaded⟩ := mem_danglingReferences_iff.mp h
  · exact (dangles_of_mem_danglingIn hdangling).lacks database
  · obtain ⟨loaded, table, hloaded, _, htable, rfl⟩ := exists_of_unloadedIn hunloaded
    exact .inr ⟨loaded, hloaded, htable⟩

end Registry

namespace Engine

open Evaluation Registry

variable {engine : Engine} {name : String} {metric : Metric} {error : MetricError}

theorem Founded.fails_value_of_unknown (hfounded : engine.Founded)
    (h : engine.registry.metrics.get? name = none) (context : Context) :
    Fails (engine.value name context) := by
  rw [hfounded.obeysDefinitions name context, byDefinition_of_unknown h]
  exact fails_error _

theorem Founded.fails_value_of_dangles (hfounded : engine.Founded)
    (hmetric : engine.registry.metrics.get? name = some metric)
    (h : engine.registry.Dangles metric.kind error) (context : Context) :
    Fails (engine.value name context) := by
  rw [hfounded.obeysDefinitions name context, byDefinition_of_metric hmetric]
  generalize metric.kind = kind at h
  cases h with
  | @table fact h =>
      have htable : Fails (engine.factTable fact.factTable) := by
        rw [factTable, h]
        exact fails_error _
      exact htable.bind _
  | @measure fact table htable h =>
      refine fails_bind fun found hfound => ?_
      rw [factTable, htable] at hfound
      obtain rfl := Except.ok.inj hfound
      rw [h]
      exact fails_error _
  | @dependency derived other hother h =>
      have hentries : Fails (entriesOf engine.value context derived.dependsOn) :=
        fails_mapM hother ((hfounded.fails_value_of_unknown h context).bind _)
      exact hentries.bind _
  | @base transform h => exact fails_bind fun changed _ => hfounded.fails_value_of_unknown h changed
  | @transform transform h =>
      have hchange : Fails (engine.transformed transform.transform context) := by
        rw [transformed, h]
        exact fails_error _
      exact hchange.bind _

/-- A metric that reads rows needs them to be loaded, whatever else it needs. -/
theorem Founded.fails_value_of_unloaded (hfounded : engine.Founded)
    (hmetric : engine.registry.metrics.get? name = some metric) {table : String}
    (htable : metric.factTable? = some table) (h : engine.database.get? table = none)
    (context : Context) : Fails (engine.value name context) := by
  have hrows : Fails (engine.loadedRows table) := by
    rw [loadedRows, Database.rowSet?, h]
    exact fails_error _
  rw [hfounded.obeysDefinitions name context, byDefinition_of_metric hmetric]
  rw [Metric.factTable?] at htable
  cases hkind : metric.kind with
  | fact fact =>
      rw [hkind] at htable
      obtain rfl := Option.some.inj htable
      refine fails_bind fun definition _ => ?_
      split
      · exact fails_error _
      · exact hrows.bind _
  | expression expression =>
      rw [hkind] at htable
      obtain rfl := Option.some.inj htable
      exact fails_bind fun grain _ => hrows.bind _
  | derived derived =>
      rw [hkind] at htable
      cases htable
  | transform transform =>
      rw [hkind] at htable
      cases htable

theorem Founded.fails_evaluateMetric (hfounded : engine.Founded) (context : Context)
    (h : Fails (engine.value name context)) : Fails (engine.evaluateMetric name context) :=
  SameFailure.fails (hfounded.ensures_evaluate_sameFailure name context context .empty
    engine.sound_empty).1 h

end Engine

namespace Registry

open Evaluation

/-- **No false alarms.** An entry of the list means that some registered metric fails under every
context: over every database if the list was made without one, and over the database that it was
made for. What an entry calls unknown is unknown. -/
theorem danglingReferences_justified {factTables : List FactTable} {definitions : List Metric}
    {transforms : Transforms} {registry : Registry}
    (hbuild : build factTables definitions transforms = .ok registry) :
    (registry.danglingReferences none ≠ [] → ∃ name, registry.metrics.contains name = true ∧
        ∀ database display context,
          Fails (Engine.evaluateMetric ⟨registry, database, display⟩ name context)) ∧
      (∀ database, registry.danglingReferences (some database) ≠ [] →
        ∃ name, registry.metrics.contains name = true ∧ ∀ display context,
          Fails (Engine.evaluateMetric ⟨registry, database, display⟩ name context)) ∧
      ∀ database, ∀ error ∈ registry.danglingReferences database,
        registry.Lacks database error := by
  have hfounded : ∀ database display, Engine.Founded ⟨registry, database, display⟩ :=
    Engine.founded_of_build hbuild
  have hdangling : ∀ metric ∈ registry.metrics.values, ∀ error ∈ registry.danglingIn metric,
      ∃ name, registry.metrics.contains name = true ∧ ∀ database display context,
        Fails (Engine.evaluateMetric ⟨registry, database, display⟩ name context) := by
    intro metric hmetric error herror
    obtain ⟨name, hname⟩ := KeyMap.mem_values_iff.mp hmetric
    refine ⟨name, KeyMap.contains_iff.mpr ⟨metric, hname⟩, fun database display context => ?_⟩
    have hfounded := hfounded database display
    exact hfounded.fails_evaluateMetric context
      (hfounded.fails_value_of_dangles hname (dangles_of_mem_danglingIn herror) context)
  refine ⟨fun hlist => ?_, fun database hlist => ?_,
    fun database error herror => lacks_of_mem_danglingReferences herror⟩
  · obtain ⟨error, herror⟩ := List.exists_mem_of_ne_nil _ hlist
    obtain ⟨metric, hmetric, herror | hunloaded⟩ := mem_danglingReferences_iff.mp herror
    · exact hdangling metric hmetric error herror
    · cases hunloaded
  · obtain ⟨error, herror⟩ := List.exists_mem_of_ne_nil _ hlist
    obtain ⟨metric, hmetric, herror | hunloaded⟩ := mem_danglingReferences_iff.mp herror
    · obtain ⟨name, hname, hfails⟩ := hdangling metric hmetric error herror
      exact ⟨name, hname, hfails database⟩
    · obtain ⟨loaded, table, hloaded, htable, hmissing, _⟩ := exists_of_unloadedIn hunloaded
      obtain rfl := Option.some.inj hloaded
      obtain ⟨name, hname⟩ := KeyMap.mem_values_iff.mp hmetric
      refine ⟨name, KeyMap.contains_iff.mpr ⟨metric, hname⟩, fun display context => ?_⟩
      have hfounded := hfounded database display
      exact hfounded.fails_evaluateMetric context
        (hfounded.fails_value_of_unloaded hname htable hmissing context)

/-- One metric refers to a metric that is missing, and rows are missing for another one. -/
theorem danglingReferences_justified_salesRegistry :
    Engine.salesRegistry.danglingReferences none = [.unknownMetric "cost"] ∧
      Engine.salesRegistry.danglingReferences (some .empty) =
        [.unknownMetric "cost", .unknownFactTable "sales"] ∧
      (∃ name, Engine.salesRegistry.metrics.contains name = true ∧
        ∀ database display context,
          Fails (Engine.evaluateMetric ⟨Engine.salesRegistry, database, display⟩ name context)) ∧
      ∀ error ∈ Engine.salesRegistry.danglingReferences (some .empty),
        Engine.salesRegistry.Lacks (some .empty) error := by
  obtain ⟨hfails, -, hlacks⟩ := danglingReferences_justified Engine.build_salesRegistry
  have hlist : Engine.salesRegistry.danglingReferences none = [.unknownMetric "cost"] := by
    decide +kernel
  refine ⟨hlist, by decide +kernel, hfails ?_, hlacks (some .empty)⟩
  rw [hlist]
  exact List.cons_ne_nil _ _

end Registry

end MetricLayer
