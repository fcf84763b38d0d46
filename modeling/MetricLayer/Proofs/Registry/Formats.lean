import MetricLayer.Proofs.Registry.Depth

/-!
# Formats along the bases of transforms

The format of a metric is looked for along the names that lead from it over the bases of transforms
to the first metric that is no transform, or to a name that is not registered. The first format that
a metric on the way has of its own counts, else that of the measure at the end.
-/

namespace MetricLayer.Registry

variable {registry : Registry} {name base : String} {chain : List String}

def base? (registry : Registry) (name : String) : Option String :=
  match (registry.metrics.get? name).map Metric.kind with
  | some (.transform transform) => some transform.base
  | _ => none

def ownFormat? (registry : Registry) (name : String) : Option ValueFormat :=
  registry.metrics.get? name >>= Metric.format

/-- The format of the measure of a fact metric. -/
def measureFormat? (registry : Registry) (name : String) : Option ValueFormat :=
  match (registry.metrics.get? name).map Metric.kind with
  | some (.fact fact) => do
      let table ← registry.factTables.get? fact.factTable
      let measure ← table.measures.get? fact.measure
      measure.format
  | _ => none

/-- The names from a metric over the bases of transforms to the first one without a base. -/
inductive BaseChain (registry : Registry) : String → List String → Prop
  | last {name : String} (h : registry.base? name = none) : BaseChain registry name [name]
  | step {name base : String} {chain : List String} (h : registry.base? name = some base)
      (rest : BaseChain registry base chain) : BaseChain registry name (name :: chain)

/-- The first format of its own along the chain, else that of the measure at its end. -/
def chainFormat? (registry : Registry) (chain : List String) : Option ValueFormat :=
  (chain.findSome? registry.ownFormat?).or (chain.getLast? >>= registry.measureFormat?)

/-- One step of the search, with the base of a transform left to a function. -/
def formatStep (registry : Registry) (deeper : String → Option ValueFormat) (name : String) :
    Option ValueFormat :=
  (registry.ownFormat? name).or ((registry.base? name).elim (registry.measureFormat? name) deeper)

/-- The search to that depth; names nested deeper are left to `beyond`. -/
def nestedFormat (registry : Registry) (beyond : String → Option ValueFormat) :
    Nat → String → Option ValueFormat
  | 0, name => beyond name
  | depth + 1, name => registry.formatStep (registry.nestedFormat beyond depth) name

theorem refersTo_of_base? (h : registry.base? name = some base) :
    RefersTo registry.metrics name base := by
  unfold base? at h
  split at h
  · rename_i transform hkind
    obtain ⟨metric, hmetric, hkind⟩ := Option.map_eq_some_iff.mp hkind
    obtain rfl := Option.some.inj h
    exact ⟨metric, hmetric, by simp [Metric.dependencies, hkind]⟩
  · cases h

theorem exists_baseChain {depth : Nat} (hends : EndsWithin registry.metrics depth name) :
    ∃ chain, registry.BaseChain name chain ∧ chain.length ≤ depth := by
  induction depth generalizing name with
  | zero => exact hends.elim
  | succ depth ih =>
      cases hbase : registry.base? name with
      | none => exact ⟨[name], .last hbase, by simp⟩
      | some base =>
          obtain ⟨chain, hchain, hlength⟩ := ih (hends base (refersTo_of_base? hbase))
          exact ⟨name :: chain, .step hbase hchain, by simpa using hlength⟩

theorem formatWithin_succ (registry : Registry) (depth : Nat) (name : String) :
    registry.formatWithin (depth + 1) name =
      registry.formatStep (registry.formatWithin depth) name := by
  rw [formatWithin, formatStep, ownFormat?, base?, measureFormat?]
  cases registry.metrics.get? name with
  | none => rfl
  | some metric =>
      simp only [Option.bind_eq_bind, Option.bind_some, Option.map_some]
      cases metric.format with
      | some format => rfl
      | none =>
          cases metric.kind with
          | fact fact => simp [measure?, Option.bind_assoc]
          | expression expression => rfl
          | derived derived => rfl
          | transform transform => rfl

theorem formatWithin_eq_nestedFormat (registry : Registry) (depth : Nat) :
    registry.formatWithin depth = registry.nestedFormat (fun _ => none) depth := by
  induction depth with
  | zero => rfl
  | succ depth ih =>
      funext name
      rw [formatWithin_succ, nestedFormat, ih]

theorem BaseChain.ne_nil (h : registry.BaseChain name chain) : chain ≠ [] := by
  cases h <;> simp

/-- A search that may be as deep as the chain is long follows it to its end. -/
theorem BaseChain.nestedFormat_eq (h : registry.BaseChain name chain)
    (beyond : String → Option ValueFormat) {depth : Nat} (hdepth : chain.length ≤ depth) :
    registry.nestedFormat beyond depth name = registry.chainFormat? chain := by
  induction h generalizing depth with
  | last hbase =>
      obtain ⟨left, rfl⟩ : ∃ left, depth = left + 1 := ⟨depth - 1, by simp at hdepth; omega⟩
      simp [nestedFormat, formatStep, chainFormat?, hbase]
  | step hbase hrest ih =>
      obtain ⟨left, rfl⟩ : ∃ left, depth = left + 1 := ⟨depth - 1, by simp at hdepth; omega⟩
      have hleft : _ ≤ left := Nat.le_of_succ_le_succ hdepth
      obtain ⟨head, tail, hchain⟩ := List.exists_cons_of_ne_nil hrest.ne_nil
      rw [nestedFormat, formatStep, hbase, Option.elim_some, ih hleft, chainFormat?, chainFormat?,
        List.findSome?_cons, hchain, List.getLast?_cons_cons]
      cases registry.ownFormat? _ <;> rfl

end MetricLayer.Registry
