import MetricLayer.Model
import MetricLayer.Proofs.Evaluation.Memo
import MetricLayer.Proofs.Metric.Combinations

/-!
# Derived metrics of a model

A model registers every metric of its definition under its name, and a derived one with the operands
of its combination among the names that it depends on. So a derived metric that has a value is the
named combination of the values of other metrics under the same context.
-/

namespace MetricLayer

theorem bind_eq_ok_iff {ε α β : Type} {outcome : Except ε α} {next : α → Except ε β} {value : β} :
    outcome >>= next = .ok value ↔ ∃ first, outcome = .ok first ∧ next first = .ok value := by
  cases outcome <;> simp [bind, Except.bind]

namespace MetricDefinition

variable {name : String} {definition : MetricDefinition} {metric : Metric}

theorem required_eq_ok_iff {α : Type} {field : String} {value : Option α} {given : α} :
    required name field value = .ok given ↔ value = some given := by
  cases value <;> simp [required]

theorem name_of_ofKind (h : definition.ofKind name = .ok metric) : metric.name = name := by
  unfold ofKind at h
  split at h
  · obtain ⟨factTable, _, h⟩ := bind_eq_ok_iff.mp h
    obtain ⟨measure, _, h⟩ := bind_eq_ok_iff.mp h
    dsimp only at h
    split at h
    · obtain rfl := Except.ok.inj h
      rfl
    · obtain ⟨aggregation, _, h⟩ := bind_eq_ok_iff.mp h
      obtain rfl := Except.ok.inj h
      rfl
  · obtain ⟨factTable, _, h⟩ := bind_eq_ok_iff.mp h
    obtain ⟨aggregate, _, h⟩ := bind_eq_ok_iff.mp h
    obtain rfl := Except.ok.inj h
    rfl
  · obtain ⟨combine, _, h⟩ := bind_eq_ok_iff.mp h
    split at h
    · cases h
    · obtain rfl := Except.ok.inj h
      rfl
  · obtain ⟨base, _, h⟩ := bind_eq_ok_iff.mp h
    obtain ⟨transform, _, h⟩ := bind_eq_ok_iff.mp h
    obtain rfl := Except.ok.inj h
    rfl
  · cases h

theorem kind_of_ofKind_derived (hkind : definition.kind = "derived")
    (h : definition.ofKind name = .ok metric) :
    ∃ combine, definition.combine = some combine ∧
      metric.kind = .derived ⟨dependencies definition.dependsOn combine,
        fun values _ _ => combine.apply values⟩ := by
  have hderived : derivedMetric name definition = .ok metric := by
    rw [← h, ofKind, hkind]
    rfl
  obtain ⟨combine, hcombine, hderived⟩ := bind_eq_ok_iff.mp hderived
  refine ⟨combine, required_eq_ok_iff.mp hcombine, ?_⟩
  split at hderived
  · cases hderived
  · obtain rfl := Except.ok.inj hderived
    rfl

theorem name_withGrain (metric : Metric) (grain : List String) :
    (metric.withGrain grain).name = metric.name := by
  rw [Metric.withGrain]
  split <;> rfl

theorem metric_eq_ok_iff :
    definition.metric name = .ok metric ↔
      ∃ format plain, formatOfTag .metric name definition.format = .ok format ∧
        definition.ofKind name = .ok plain ∧
        metric = { definition.grain.elim plain plain.withGrain with
          description := definition.description, format } := by
  simp only [MetricDefinition.metric, bind_eq_ok_iff]
  constructor
  · rintro ⟨format, hformat, plain, hplain, hmetric⟩
    exact ⟨format, plain, hformat, hplain, (Except.ok.inj hmetric).symm⟩
  · rintro ⟨format, plain, hformat, hplain, rfl⟩
    exact ⟨format, hformat, plain, hplain, rfl⟩

theorem name_of_metric (h : definition.metric name = .ok metric) : metric.name = name := by
  obtain ⟨format, plain, -, hplain, rfl⟩ := metric_eq_ok_iff.mp h
  change (definition.grain.elim plain plain.withGrain).name = name
  cases definition.grain with
  | none => exact name_of_ofKind hplain
  | some grain => exact (name_withGrain plain grain).trans (name_of_ofKind hplain)

theorem kind_of_metric_derived (hkind : definition.kind = "derived")
    (h : definition.metric name = .ok metric) :
    ∃ combine, definition.combine = some combine ∧
      metric.kind = .derived ⟨dependencies definition.dependsOn combine,
        fun values _ _ => combine.apply values⟩ := by
  obtain ⟨format, plain, -, hplain, rfl⟩ := metric_eq_ok_iff.mp h
  obtain ⟨combine, hcombine, hderived⟩ := kind_of_ofKind_derived hkind hplain
  refine ⟨combine, hcombine, ?_⟩
  change (definition.grain.elim plain plain.withGrain).kind = _
  cases definition.grain with
  | none => exact hderived
  | some grain =>
      rw [Option.elim_some, Metric.withGrain, hderived]
      exact hderived

/-- Every operand is listed, or completes the list. -/
theorem mem_dependencies_of_referenced {listed : List String} {combine : Combine} {operand : String}
    (h : operand ∈ combine.referenced) : operand ∈ dependencies listed combine := by
  have hfold : ∀ (operands names : List String), operand ∈ operands ∨ operand ∈ names →
      operand ∈ operands.foldl (fun names name =>
        if names.contains name then names else names ++ [name]) names := by
    intro operands
    induction operands with
    | nil => exact fun names hmem => hmem.resolve_left List.not_mem_nil
    | cons head rest ih =>
        intro names hmem
        rw [List.foldl_cons]
        refine ih _ ?_
        by_cases hrest : operand ∈ rest
        · exact .inl hrest
        · right
          split
          · rename_i hcontains
            rcases hmem with hmem | hmem
            · rcases List.mem_cons.mp hmem with rfl | hmem
              · simpa using hcontains
              · exact absurd hmem hrest
            · exact hmem
          · rcases hmem with hmem | hmem
            · rcases List.mem_cons.mp hmem with rfl | hmem
              · simp
              · exact absurd hmem hrest
            · simp [hmem]
  exact hfold combine.referenced listed (.inl h)

/-- Sums and products have no operand that could complete the list. -/
theorem yields_dependencies {value : String → Option Float} {listed : List String}
    {combine : Combine} {result : Option Float}
    (h : combine.Yields value (dependencies listed combine) result) :
    combine.Yields value listed result := by
  cases combine <;> exact h

end MetricDefinition

namespace ModelDefinition

variable {definition : ModelDefinition} {keys : TimeKeys} {model : Model} {name : String}
  {entry : MetricDefinition}

theorem exists_build (h : definition.model keys = .ok model) :
    ∃ factTables metrics,
      (definition.metrics.toList.mapM fun entry => entry.2.metric entry.1) = .ok metrics ∧
        Registry.build factTables metrics (.builtin keys) = .ok model.registry := by
  obtain ⟨factTables, _, h⟩ := bind_eq_ok_iff.mp h
  obtain ⟨metrics, hmetrics, h⟩ := bind_eq_ok_iff.mp h
  obtain ⟨registry, hregistry, h⟩ := bind_eq_ok_iff.mp h
  obtain rfl := Except.ok.inj h
  refine ⟨factTables, metrics, hmetrics, ?_⟩
  cases hbuild : Registry.build factTables metrics (.builtin keys) with
  | error error =>
      rw [hbuild] at hregistry
      cases hregistry
  | ok built =>
      rw [hbuild] at hregistry
      obtain rfl := Except.ok.inj hregistry
      rfl

theorem exists_registered (h : definition.model keys = .ok model)
    (hentry : definition.metrics.get? name = some entry) :
    ∃ metric, entry.metric name = .ok metric ∧ model.registry.metrics.get? name = some metric := by
  obtain ⟨factTables, metrics, hmetrics, hbuild⟩ := exists_build h
  have hloaded := forall₂_of_mapM_ok hmetrics
  have hnames : metrics.map Metric.name = definition.metrics.keys := by
    rw [KeyMap.keys, ← List.forall₂_eq_eq_eq, List.forall₂_map_left_iff,
      List.forall₂_map_right_iff]
    exact hloaded.flip.imp fun _ _ => MetricDefinition.name_of_metric
  obtain ⟨metric, hmem, hmetric⟩ :=
    exists_of_forall₂ hloaded.flip (KeyMap.mem_toList_iff.mpr hentry)
  refine ⟨metric, hmetric, ?_⟩
  obtain rfl := MetricDefinition.name_of_metric hmetric
  have hnodup : ((metrics.map fun metric => (metric.name, metric)).map (·.1)).Nodup := by
    rw [List.map_map]
    exact hnames ▸ definition.metrics.keys_nodup
  rw [(Registry.build_eq_ok hbuild).1, KeyMap.get?_ofList, KeyMap.lookup_reverse_of_nodup hnodup]
  exact KeyMap.lookup_of_mem_of_nodup hnodup
    (List.mem_map_of_mem (f := fun metric => (metric.name, metric)) hmem)

end ModelDefinition

namespace Engine

variable {engine : Engine} {context : Context}

/-- A derived metric that has a value is made from the values of its dependencies. -/
theorem exists_of_value_derived {name : String} {metric : Metric} {derived : DerivedMetric}
    {result : Option Float} (hfounded : engine.Founded)
    (hmetric : engine.registry.metrics.get? name = some metric)
    (hkind : metric.kind = .derived derived) (h : engine.value name context = .ok result) :
    ∃ value : String → Option Float,
      (∀ dependency ∈ derived.dependsOn, engine.value dependency context = .ok (value dependency)) ∧
      result = derived.combinator
        (.ofList (derived.dependsOn.map fun dependency => (dependency, value dependency)))
        engine.database context := by
  rw [hfounded.obeysDefinitions, byDefinition_of_metric hmetric, hkind, kindValue] at h
  obtain ⟨entries, hentries, hresult⟩ := bind_eq_ok_iff.mp h
  obtain rfl := Except.ok.inj hresult
  have hloaded := forall₂_of_mapM_ok hentries
  obtain ⟨value, hvalue⟩ : ∃ value : String → Option Float, ∀ dependency found,
      engine.value dependency context = .ok found → found = value dependency :=
    ⟨fun dependency => (engine.value dependency context).toOption.join,
      fun dependency found hfound => by simp [hfound, Except.toOption]⟩
  have hentry : ∀ dependency entry, (do
      let value ← engine.value dependency context
      return (dependency, value)) = Except.ok entry →
        engine.value dependency context = .ok (value dependency) ∧
          entry = (dependency, value dependency) := by
    intro dependency entry hentry
    obtain ⟨found, hfound, hpair⟩ := bind_eq_ok_iff.mp hentry
    obtain rfl := Except.ok.inj hpair
    obtain rfl := hvalue dependency found hfound
    exact ⟨hfound, rfl⟩
  refine ⟨value, fun dependency hmem => ?_, ?_⟩
  · obtain ⟨entry, -, hok⟩ := exists_of_forall₂ hloaded.flip hmem
    exact (hentry dependency entry hok).1
  · have heq : entries = derived.dependsOn.map fun dependency => (dependency, value dependency) := by
      rw [← List.forall₂_eq_eq_eq, List.forall₂_map_right_iff]
      exact hloaded.flip.imp fun entry dependency hok => (hentry dependency entry hok).2
    rw [heq]

/-- **A derived metric computes its named operation on metric values.** If it has a value, so has
every metric that it depends on, each operand of its combination is one of them, and the value is
what the combination yields. -/
theorem evaluateMetric_derived {definition : ModelDefinition} {keys : TimeKeys} {model : Model}
    (hmodel : definition.model keys = .ok model) {name : String} {entry : MetricDefinition}
    (hentry : definition.metrics.get? name = some entry) (hkind : entry.kind = "derived")
    (database : Database) (display : DisplaySettings) {context : Context}
    (hcontext : context.FloatFree) {result : Option Float}
    (hresult : evaluateMetric ⟨model.registry, database, display⟩ name context = .ok result) :
    ∃ combine metric, entry.combine = some combine ∧
      model.registry.metrics.get? name = some metric ∧
      (∀ operand, combine.Names operand → operand ∈ metric.dependencies) ∧
      ∃ value : String → Option Float,
        (∀ dependency ∈ metric.dependencies,
          evaluateMetric ⟨model.registry, database, display⟩ dependency context =
            .ok (value dependency)) ∧
        combine.Yields value entry.dependsOn result := by
  obtain ⟨factTables, metrics, -, hbuild⟩ := ModelDefinition.exists_build hmodel
  obtain ⟨metric, hmetric, hregistered⟩ := ModelDefinition.exists_registered hmodel hentry
  obtain ⟨combine, hcombine, hderived⟩ := MetricDefinition.kind_of_metric_derived hkind hmetric
  have hfounded := founded_of_build hbuild database display
  have htransforms : model.registry.transforms.KeepFloatFree := by
    rw [(Registry.build_eq_ok hbuild).1]
    exact Transforms.keepFloatFree_builtin keys
  rw [hfounded.evaluateMetric_eq_value htransforms name hcontext] at hresult
  obtain ⟨value, hvalue, rfl⟩ :=
    exists_of_value_derived hfounded hregistered hderived hresult
  have hoperands : ∀ operand ∈ combine.referenced,
      operand ∈ MetricDefinition.dependencies entry.dependsOn combine :=
    fun operand => MetricDefinition.mem_dependencies_of_referenced
  refine ⟨combine, metric, hcombine, hregistered, ?_, value, ?_, ?_⟩
  · intro operand hnames
    rw [Metric.dependencies, hderived]
    exact hoperands operand (Combine.mem_referenced_iff.mpr hnames)
  · intro dependency hmem
    rw [Metric.dependencies, hderived] at hmem
    rw [hfounded.evaluateMetric_eq_value htransforms dependency hcontext]
    exact hvalue dependency hmem
  · exact MetricDefinition.yields_dependencies (combine.yields_apply hoperands)

/-! A table with two sales, and a ratio that lists one of its two operands. -/

def shopMetric : MetricDefinition :=
  ⟨"fact", none, none, some "sales", none, none, none, none, [], none, none, none⟩

def shopRatio : MetricDefinition := { shopMetric with
  kind := "derived", dependsOn := ["orders"], combine := some (.ratio "revenue" "orders") }

def shopDefinition : ModelDefinition where
  factTables := KeyMap.ofList [("sales", ⟨["year"], KeyMap.ofList
    [("revenue", ⟨none, none, none⟩), ("orders", ⟨none, some "count", none⟩)]⟩)]
  metrics := KeyMap.ofList [
    ("revenue", { shopMetric with measure := some "revenue" }),
    ("orders", { shopMetric with measure := some "orders" }),
    ("revenue per order", shopRatio)]
  labels := []

theorem exists_shopModel : ∃ model, shopDefinition.model .standard = .ok model ∧
    evaluateMetric ⟨model.registry, salesRows, .standard⟩ "revenue per order" .empty =
      .ok (some 9.0) := by
  have hanswer : (do
      let model ← (shopDefinition.model .standard).toOption
      (evaluateMetric ⟨model.registry, salesRows, .standard⟩ "revenue per order"
        .empty).toOption) = some (some 9.0) := by decide +kernel
  cases hmodel : shopDefinition.model .standard with
  | error error =>
      rw [hmodel] at hanswer
      cases hanswer
  | ok model =>
      rw [hmodel] at hanswer
      refine ⟨model, rfl, ?_⟩
      cases hvalue : evaluateMetric ⟨model.registry, salesRows, .standard⟩ "revenue per order"
          .empty with
      | error error => simp [Except.toOption, hvalue] at hanswer
      | ok value => simpa [Except.toOption, hvalue] using hanswer

theorem evaluateMetric_derived_shopDefinition :
    ∃ model, shopDefinition.model .standard = .ok model ∧
      ∃ metric, model.registry.metrics.get? "revenue per order" = some metric ∧
        "revenue" ∈ metric.dependencies ∧ "orders" ∈ metric.dependencies ∧
        ∃ value : String → Option Float,
          (∀ dependency ∈ metric.dependencies,
            evaluateMetric ⟨model.registry, salesRows, .standard⟩ dependency .empty =
              .ok (value dependency)) ∧
          Combine.Divides (value "orders") (fun orders => (value "revenue").getD 0.0 / orders)
            (some 9.0) := by
  obtain ⟨model, hmodel, hresult⟩ := exists_shopModel
  have hentry : shopDefinition.metrics.get? "revenue per order" = some shopRatio := by
    decide +kernel
  obtain ⟨combine, metric, hcombine, hmetric, hoperands, value, hvalue, hyields⟩ :=
    evaluateMetric_derived hmodel hentry rfl salesRows .standard Context.floatFree_empty hresult
  obtain rfl := Option.some.inj hcombine
  exact ⟨model, hmodel, metric, hmetric, hoperands "revenue" (.inl rfl),
    hoperands "orders" (.inr rfl), value, hvalue, hyields⟩

end Engine

end MetricLayer
