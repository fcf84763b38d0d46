import MetricLayer.Proofs.Evaluation.Memo

/-!
# Failure does not depend on the context

A context decides which rows count. It does not decide which metrics, tables, measures and
transforms are asked for, and those are the only things that can be missing. Two evaluations of a
metric are related here as two runs of one computation: neither fails, or both fail with the same
error. A cache cannot hide an error, as it only ever holds values of metrics that do not fail.
-/

namespace MetricLayer

namespace Evaluation

variable {α β γ δ : Type} {inv : Cache → Prop}

/-- Both fail with the same error, or neither fails. -/
def SameFailure (first : Except MetricError α) (second : Except MetricError β) : Prop :=
  ∀ error, first = .error error ↔ second = .error error

theorem sameFailure_ok (value : α) (other : β) :
    SameFailure (.ok value : Except MetricError α) (.ok other : Except MetricError β) := by
  intro error
  constructor
  · intro h
    cases h
  · intro h
    cases h

theorem sameFailure_error (error : MetricError) :
    SameFailure (.error error : Except MetricError α) (.error error : Except MetricError β) := by
  intro other
  rw [Except.error.injEq, Except.error.injEq]

theorem SameFailure.exists_ok {first : Except MetricError α} {other : β}
    (h : SameFailure first (.ok other : Except MetricError β)) : ∃ value, first = .ok value := by
  cases first with
  | ok value => exact ⟨value, rfl⟩
  | error error => cases (h error).mp rfl

theorem SameFailure.symm {first : Except MetricError α} {second : Except MetricError β}
    (h : SameFailure first second) : SameFailure second first :=
  fun error => (h error).symm

theorem ensures_bind_sameFailure {first : Evaluation α} {next : α → Evaluation β}
    {outcome : Except MetricError γ} {rest : γ → Except MetricError δ}
    (hfirst : Ensures inv first (SameFailure outcome))
    (hnext : ∀ value expected, outcome = .ok expected →
      Ensures inv (next value) (SameFailure (rest expected))) :
    Ensures inv (first >>= next) (SameFailure (outcome >>= rest)) := by
  cases outcome with
  | ok expected =>
      refine Ensures.bind hfirst (fun value _ => hnext value expected rfl) fun error herror => ?_
      cases (herror error).mpr rfl
  | error error =>
      refine Ensures.bind hfirst (fun value hvalue => ?_) fun other hother => ?_
      · cases (hvalue error).mp rfl
      · obtain rfl := Except.error.inj ((hother other).mpr rfl)
        exact sameFailure_error error

theorem ensures_pure_sameFailure (value : α) (expected : β) :
    Ensures inv (pure value) (SameFailure (.ok expected : Except MetricError β)) :=
  ensures_ofExcept (sameFailure_ok expected value)

/-- What is made of a value in the end does not show in the failure. -/
theorem ensures_map_sameFailure {computation : Evaluation α} {outcome : Except MetricError γ}
    (h : Ensures inv computation (SameFailure outcome)) (change : α → β) :
    Ensures inv (computation >>= fun value => pure (change value)) (SameFailure outcome) := by
  refine Ensures.bind h (fun value hvalue => ?_) fun error herror other => ?_
  · obtain ⟨expected, rfl⟩ := hvalue.exists_ok
    exact ensures_pure_sameFailure (change value) expected
  · rw [herror other, Except.error.injEq, Except.error.injEq]

theorem ensures_mapM_sameFailure {evaluate : α → Evaluation β} {values : α → Except MetricError γ}
    {items : List α}
    (h : ∀ item ∈ items, Ensures inv (evaluate item) (SameFailure (values item))) :
    Ensures inv (items.mapM evaluate) (SameFailure (items.mapM values)) := by
  induction items with
  | nil => exact ensures_pure_sameFailure [] []
  | cons head rest ih =>
      rw [List.mapM_cons, List.mapM_cons]
      refine ensures_bind_sameFailure (h head List.mem_cons_self) fun value expected _ => ?_
      refine ensures_bind_sameFailure (ih fun item hmem => h item (List.mem_cons_of_mem _ hmem))
        fun others _ _ => ?_
      exact ensures_pure_sameFailure (value :: others) _

theorem mapM_cons_eq_error_iff {evaluate : α → Except MetricError β} {head : α} {rest : List α}
    {error : MetricError} :
    (head :: rest).mapM evaluate = .error error ↔ evaluate head = .error error ∨
      (∃ value, evaluate head = .ok value) ∧ rest.mapM evaluate = .error error := by
  rw [List.mapM_cons]
  cases evaluate head with
  | error first =>
      constructor
      · intro h
        obtain rfl := Except.error.inj h
        exact .inl rfl
      · rintro (h | ⟨⟨value, h⟩, _⟩)
        · obtain rfl := Except.error.inj h
          rfl
        · cases h
  | ok value =>
      cases rest.mapM evaluate with
      | error first =>
          constructor
          · intro h
            exact .inr ⟨⟨value, rfl⟩, h⟩
          · rintro (h | ⟨_, h⟩)
            · cases h
            · exact h
      | ok others =>
          constructor
          · intro h
            cases h
          · rintro (h | ⟨_, h⟩) <;> cases h

/-- The error of a list is that of the first item that fails. -/
theorem mapM_eq_error_iff {evaluate : α → Except MetricError β} {items : List α}
    {error : MetricError} :
    items.mapM evaluate = .error error ↔
      ∃ before item after, items = before ++ item :: after ∧
        (∀ earlier ∈ before, ∃ value, evaluate earlier = .ok value) ∧
        evaluate item = .error error := by
  induction items with
  | nil =>
      constructor
      · intro h
        cases h
      · rintro ⟨before, item, after, hsplit, _⟩
        exact absurd hsplit.symm (List.append_ne_nil_of_right_ne_nil _ (List.cons_ne_nil _ _))
  | cons head rest ih =>
      rw [mapM_cons_eq_error_iff, ih]
      constructor
      · rintro (hhead | ⟨hhead, before, item, after, rfl, hbefore, hitem⟩)
        · exact ⟨[], head, rest, rfl, List.forall_mem_nil _, hhead⟩
        · exact ⟨head :: before, item, after, rfl,
            List.forall_mem_cons.mpr ⟨hhead, hbefore⟩, hitem⟩
      · rintro ⟨before, item, after, hsplit, hbefore, hitem⟩
        cases before with
        | nil =>
            obtain ⟨rfl, _⟩ := List.cons.inj hsplit
            exact .inl hitem
        | cons earlier others =>
            obtain ⟨rfl, rfl⟩ := List.cons.inj hsplit
            obtain ⟨hhead, hothers⟩ := List.forall_mem_cons.mp hbefore
            exact .inr ⟨hhead, others, item, after, rfl, hothers, hitem⟩

theorem mapM_const_eq_error_iff {items : List α} {outcome : Except MetricError β}
    {error : MetricError} :
    (items.mapM fun _ => outcome) = .error error ↔ items ≠ [] ∧ outcome = .error error := by
  rw [mapM_eq_error_iff]
  constructor
  · rintro ⟨before, item, after, rfl, _, houtcome⟩
    exact ⟨List.append_ne_nil_of_right_ne_nil _ (List.cons_ne_nil _ _), houtcome⟩
  · rintro ⟨hitems, houtcome⟩
    obtain ⟨item, after, rfl⟩ := List.exists_cons_of_ne_nil hitems
    exact ⟨[], item, after, rfl, List.forall_mem_nil _, houtcome⟩

end Evaluation

namespace Engine

open Evaluation Registry

variable {engine : Engine} {name : String} {context : Context}

theorem sameFailure_factValue (fact : FactMetric) (first second : Context) :
    SameFailure (engine.factValue fact first) (engine.factValue fact second) := by
  rw [factValue, factValue]
  cases engine.factTable fact.factTable with
  | error error => exact sameFailure_error error
  | ok table =>
      cases hmeasure : table.measures.get? fact.measure with
      | none =>
          simp only [bind, Except.bind, hmeasure]
          exact sameFailure_error _
      | some measure =>
          simp only [bind, Except.bind, hmeasure]
          cases engine.loadedRows fact.factTable with
          | error error => exact sameFailure_error error
          | ok rows => exact sameFailure_ok _ _

theorem sameFailure_expressionValue (expression : ExpressionMetric) (first second : Context) :
    SameFailure (engine.expressionValue expression first)
      (engine.expressionValue expression second) := by
  rw [expressionValue, expressionValue]
  cases engine.expressionGrain expression with
  | error error => exact sameFailure_error error
  | ok grain =>
      cases engine.loadedRows expression.factTable with
      | error error => exact sameFailure_error error
      | ok rows => exact sameFailure_ok _ _

theorem sameFailure_transformed (transform : String) (first second : Context) :
    SameFailure (engine.transformed transform first) (engine.transformed transform second) := by
  rw [transformed, transformed]
  cases engine.registry.transforms.get? transform with
  | none => exact sameFailure_error _
  | some change => exact sameFailure_ok _ _

/-- A step over the cache and a step of the plain recursion fail alike, each under a context of its
own, if the evaluations that they start do. -/
theorem ensures_definitionStep_sameFailure {inv : Cache → Prop}
    {evaluate : String → Context → Evaluation (Option Float)} {values : Valuation}
    (h : ∀ other, RefersTo engine.registry.metrics name other → ∀ context plain : Context,
      Ensures inv (evaluate other context) (SameFailure (values other plain)))
    (context plain : Context) :
    Ensures inv (engine.definitionStep evaluate name context)
      (SameFailure (engine.byDefinition values name plain)) := by
  have hlookup : Computes inv (.ofExcept (engine.metric name)) (engine.metric name) :=
    computes_ofExcept _
  refine Ensures.bind hlookup (fun metric hmetric => ?_) fun error herror => ?_
  · have hfound := metric_eq_ok hmetric.symm
    rw [byDefinition_of_metric hfound]
    cases hkind : metric.kind with
    | fact fact => exact ensures_ofExcept (sameFailure_factValue fact plain context)
    | expression expression =>
        exact ensures_ofExcept (sameFailure_expressionValue expression plain context)
    | derived derived =>
        refine ensures_bind_sameFailure (ensures_mapM_sameFailure fun other hother => ?_)
          fun entries _ _ => ensures_pure_sameFailure _ _
        refine ensures_bind_sameFailure ?_ fun value _ _ => ensures_pure_sameFailure _ _
        exact h other (refersTo_of_derived hfound hkind hother) context plain
    | transform transform =>
        refine ensures_bind_sameFailure
          (ensures_ofExcept (sameFailure_transformed transform.transform plain context))
          fun changed expected _ => ?_
        exact h transform.base (refersTo_of_transform hfound hkind) changed expected
  · rw [byDefinition, ← herror]
    exact sameFailure_error error

def Succeeds (engine : Engine) (name : String) : Prop :=
  ∀ context, ∃ value, engine.value name context = .ok value

/-- The cache holds nothing of metrics that fail. -/
def Sound (engine : Engine) (cache : Cache) : Prop :=
  ∀ key value, cache.find? key = some value → engine.Succeeds key.metric

theorem sound_empty (engine : Engine) : engine.Sound .empty := by
  intro key value hfound
  cases hfound

theorem Sound.look {cache : Cache} (h : engine.Sound cache) (key : CacheKey) :
    engine.Sound (cache.look key).2 := by
  intro other value hfound
  rw [Cache.find?_look] at hfound
  exact h other value hfound

theorem Sound.store {cache : Cache} (h : engine.Sound cache) (hname : engine.Succeeds name)
    (value : Option Float) : engine.Sound (cache.store (.of name context) value) := by
  intro other found hfound
  rw [Cache.find?_store] at hfound
  split at hfound
  · rename_i hkey
    rw [hkey]
    exact hname
  · exact h other found hfound

/-- The plain recursion is taken under all contexts at once: a value that is stored under one
context has to be known not to hide an error under the others. -/
theorem Founded.ensures_evaluateWithin_sameFailure (hfounded : engine.Founded) (depth : Nat)
    (hends : EndsWithin engine.registry.metrics depth name) (context : Context) :
    Ensures engine.Sound (engine.evaluateWithin depth name context) fun outcome =>
      ∀ plain, SameFailure (engine.value name plain) outcome := by
  induction depth generalizing name context with
  | zero => exact hends.elim
  | succ depth ih =>
      have hstep : ∀ plain, Ensures engine.Sound
          (engine.definitionStep (engine.evaluateWithin depth) name context)
          (SameFailure (engine.value name plain)) := by
        intro plain
        rw [hfounded.obeysDefinitions name plain]
        refine ensures_definitionStep_sameFailure ?_ context plain
        intro other hother context plain
        exact (ih (hends other hother) context).imp fun _ hsame => hsame plain
      rw [evaluateWithin_succ]
      refine ensures_memoised ?_ ?_ (fun cache hsound => hsound.look _) ?_
      · intro cache hsound
        exact ⟨fun plain => (hstep plain cache hsound).1, (hstep .empty cache hsound).2⟩
      · intro cache value hsound hfound plain
        have hname : engine.Succeeds name := hsound (.of name context) value hfound
        obtain ⟨expected, hexpected⟩ := hname plain
        rw [hexpected]
        exact sameFailure_ok expected value
      · intro cache value hsound hsame
        exact hsound.store (fun plain => (hsame plain).exists_ok) value

theorem Founded.ensures_evaluate_sameFailure (hfounded : engine.Founded) (name : String)
    (context plain : Context) :
    Ensures engine.Sound (engine.evaluate name context) (SameFailure (engine.value name plain)) :=
  (hfounded.ensures_evaluateWithin_sameFailure _ (hfounded name) context).imp fun _ hsame =>
    hsame plain

theorem Founded.sound_outcomes (hfounded : engine.Founded) (calls : List (String × Context))
    {cache : Cache} (hcache : engine.Sound cache) :
    engine.Sound ((engine.outcomes calls).run cache).2 := by
  induction calls generalizing cache with
  | nil => exact hcache
  | cons call calls ih =>
      rw [run_outcomes_cons]
      exact ih (hfounded.ensures_evaluate_sameFailure call.1 call.2 .empty cache hcache).2

/-- What a metric gives with the cache that earlier calls have left. -/
def outcomeAfter (engine : Engine) (calls : List (String × Context)) (name : String)
    (context : Context) : Except MetricError (Option Float) :=
  ((engine.evaluate name context).run.run ((engine.outcomes calls).run .empty).2).1

/-- The metric has a value, whatever was asked for before and under whatever context. -/
def AlwaysSucceeds (engine : Engine) (name : String) : Prop :=
  ∀ calls context, ∃ value, engine.outcomeAfter calls name context = .ok value

def AlwaysFails (engine : Engine) (name : String) (error : MetricError) : Prop :=
  ∀ calls context, engine.outcomeAfter calls name context = .error error

theorem Founded.sameFailure_outcomeAfter (hfounded : engine.Founded)
    (calls : List (String × Context)) (name : String) (context plain : Context) :
    SameFailure (engine.value name plain) (engine.outcomeAfter calls name context) :=
  (hfounded.ensures_evaluate_sameFailure name context plain _
    (hfounded.sound_outcomes calls engine.sound_empty)).1

/-- One context tells whether a metric fails. -/
theorem Founded.alwaysFails_iff (hfounded : engine.Founded) {error : MetricError}
    (plain : Context) : engine.AlwaysFails name error ↔ engine.value name plain = .error error := by
  constructor
  · intro h
    exact (hfounded.sameFailure_outcomeAfter [] name plain plain error).mpr (h [] plain)
  · intro h calls context
    exact (hfounded.sameFailure_outcomeAfter calls name context plain error).mp h

theorem Founded.alwaysSucceeds_iff (hfounded : engine.Founded) (plain : Context) :
    engine.AlwaysSucceeds name ↔ ∃ value, engine.value name plain = .ok value := by
  constructor
  · intro h
    obtain ⟨value, hvalue⟩ := h [] plain
    have hsame := hfounded.sameFailure_outcomeAfter [] name plain plain
    rw [hvalue] at hsame
    exact hsame.exists_ok
  · rintro ⟨value, hvalue⟩ calls context
    have hsame := hfounded.sameFailure_outcomeAfter calls name context plain
    rw [hvalue] at hsame
    exact hsame.symm.exists_ok

theorem Founded.alwaysSucceeds_or_alwaysFails (hfounded : engine.Founded) (name : String) :
    engine.AlwaysSucceeds name ∨ ∃ error, engine.AlwaysFails name error := by
  cases hvalue : engine.value name .empty with
  | ok value => exact .inl ((hfounded.alwaysSucceeds_iff .empty).mpr ⟨value, hvalue⟩)
  | error error => exact .inr ⟨error, (hfounded.alwaysFails_iff .empty).mpr hvalue⟩

end Engine

end MetricLayer
