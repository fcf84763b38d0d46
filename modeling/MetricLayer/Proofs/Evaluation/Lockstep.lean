import MetricLayer.Proofs.Evaluation.Runs

namespace MetricLayer.Evaluation

variable {σ τ α β : Type} {related : σ → τ → Prop}

/-- Started in related states, both computations end with one outcome and in related states. -/
def Lockstep (related : σ → τ → Prop) (first : ExceptT MetricError (StateM σ) α)
    (second : ExceptT MetricError (StateM τ) α) : Prop :=
  ∀ state other, related state other →
    (first.run.run state).1 = (second.run.run other).1 ∧
      related (first.run.run state).2 (second.run.run other).2

theorem lockstep_pure (value : α) :
    Lockstep related (pure value : ExceptT MetricError (StateM σ) α)
      (pure value : ExceptT MetricError (StateM τ) α) :=
  fun _ _ hrelated => ⟨rfl, hrelated⟩

theorem lockstep_throw (error : MetricError) :
    Lockstep related (throw error : ExceptT MetricError (StateM σ) α)
      (throw error : ExceptT MetricError (StateM τ) α) :=
  fun _ _ hrelated => ⟨rfl, hrelated⟩

/-- The rest is in lockstep for every value that the second computation can come to. -/
theorem Lockstep.bind {first : ExceptT MetricError (StateM σ) α}
    {second : ExceptT MetricError (StateM τ) α} {next : α → ExceptT MetricError (StateM σ) β}
    {after : α → ExceptT MetricError (StateM τ) β} (hfirst : Lockstep related first second)
    (hnext : ∀ value, (∃ other, (second.run.run other).1 = .ok value) →
      Lockstep related (next value) (after value)) :
    Lockstep related (first >>= next) (second >>= after) := by
  intro state other hrelated
  obtain ⟨houtcome, hstates⟩ := hfirst state other hrelated
  rw [run_bind, run_bind]
  rcases hrun : first.run.run state with ⟨outcome, one⟩
  rcases hrun' : second.run.run other with ⟨outcome', two⟩
  rw [hrun, hrun'] at houtcome hstates
  obtain rfl : outcome = outcome' := houtcome
  cases outcome with
  | error error => exact ⟨rfl, hstates⟩
  | ok value => exact hnext value ⟨other, by rw [hrun']⟩ one two hstates

theorem lockstep_mapM {evaluate : α → ExceptT MetricError (StateM σ) β}
    {others : α → ExceptT MetricError (StateM τ) β} {items : List α}
    (h : ∀ item ∈ items, Lockstep related (evaluate item) (others item)) :
    Lockstep related (items.mapM evaluate) (items.mapM others) := by
  induction items with
  | nil => exact lockstep_pure []
  | cons head rest ih =>
      rw [List.mapM_cons, List.mapM_cons]
      refine (h head List.mem_cons_self).bind fun value _ => ?_
      refine (ih fun item hmem => h item (List.mem_cons_of_mem _ hmem)).bind fun values _ => ?_
      exact lockstep_pure (value :: values)

end MetricLayer.Evaluation
