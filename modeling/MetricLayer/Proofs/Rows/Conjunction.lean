import MetricLayer.Proofs.Rows.Narrowing

/-!
# Narrowing in steps

A row set may be narrowed any number of times before its rows are looked at. What it holds in the
end is what meets all the steps, so neither their order nor a step taken twice matters, and every
answer of the set is that of the list of these rows.
-/

namespace MetricLayer

namespace Context

variable {first second : Context} {grain : List String} {row : Row}

/-- Where no name is in both contexts, laying one over the other asks for what both ask for. -/
theorem admits_overlay_iff (h : ∀ name, first.get? name = none ∨ second.get? name = none) :
    Admits (first.overlay second) grain row ↔ first.Admits grain row ∧ second.Admits grain row := by
  constructor
  · intro hboth
    refine ⟨fun dimension filter hfilter => hboth dimension filter ?_,
      fun dimension filter hfilter => hboth dimension filter ?_⟩
    · have hnone : second.get? dimension = none :=
        (h dimension).resolve_left (by rw [hfilter]; exact nofun)
      rw [KeyMap.get?_overlay, hnone, hfilter]
      rfl
    · rw [KeyMap.get?_overlay, hfilter]
      rfl
  · rintro ⟨hfirst, hsecond⟩ dimension filter hfilter
    rw [KeyMap.get?_overlay, Option.or_eq_some_iff] at hfilter
    rcases hfilter with hfilter | ⟨-, hfilter⟩
    · exact hsecond dimension filter hfilter
    · exact hfirst dimension filter hfilter

end Context

namespace RowSet

variable {set other : RowSet} {kept : List Row} {steps others : List (Context × List String)}

/-- Whatever is asked of the row set is answered from this list of rows. -/
structure Answers (set : RowSet) (kept : List Row) : Prop where
  rows : set.rows = kept
  sum : ∀ number, set.sum number = sumFloats (kept.map number)
  average : ∀ number, set.average? number =
    if kept = [] then none
    else some ((kept.map number).foldl (· + ·) 0.0 / Float.ofNat kept.length)
  count : set.count = kept.length
  isEmpty : set.isEmpty = kept.isEmpty
  groupBy : ∀ {κ : Type} [DecidableEq κ] (key : Row → κ),
    set.groupBy key = MetricLayer.groupBy key kept
  columns : set.columns = KeyMap.sortNames (kept.flatMap KeyMap.keys)

theorem answers_of_rows (h : set.rows = kept) : set.Answers kept where
  rows := h
  sum := fun number => by rw [RowSet.sum, h]
  average := by
    intro number
    rw [average?, h]
    cases kept with
    | nil => rfl
    | cons row rest => exact (if_neg (List.cons_ne_nil _ _)).symm
  count := by rw [RowSet.count, h]
  isEmpty := by rw [RowSet.isEmpty, h]
  groupBy := fun key => by rw [RowSet.groupBy, h]
  columns := by rw [RowSet.columns, h]

/-- Narrows the set by each of the contexts under its grain. -/
def narrowAll (set : RowSet) (steps : List (Context × List String)) : RowSet :=
  steps.foldl (fun set step => set.narrowToGrain step.1 step.2) set

def AdmittedBy (steps : List (Context × List String)) (row : Row) : Prop :=
  ∀ step ∈ steps, step.1.Admits step.2 row

instance (steps : List (Context × List String)) (row : Row) : Decidable (AdmittedBy steps row) :=
  inferInstanceAs (Decidable (∀ step ∈ steps, step.1.Admits step.2 row))

theorem asks_narrowAll (steps : List (Context × List String)) :
    Asks (·.narrowAll steps) fun row => decide (AdmittedBy steps row) := by
  have hfold := Asks.foldl (fun step => asks_narrowToGrain step.1 step.2) steps
  refine hfold.congr fun row => ?_
  rw [Bool.eq_iff_iff, List.all_eq_true, decide_eq_true_iff]
  exact forall₂_congr fun step _ => decide_eq_true_iff

/-- Steps that come to the same keep the same rows. -/
theorem indexed_narrowAll_congr (h : ∀ row, AdmittedBy steps row ↔ AdmittedBy others row) :
    (set.narrowAll steps).indexed = (set.narrowAll others).indexed := by
  rw [(asks_narrowAll steps).indexed, (asks_narrowAll others).indexed]
  refine List.filter_congr fun entry _ => ?_
  rw [decide_eq_decide]
  exact h entry.1

/-- Neither the order of the steps nor their repetition matters. -/
theorem admittedBy_congr (h : ∀ step, step ∈ steps ↔ step ∈ others) (row : Row) :
    AdmittedBy steps row ↔ AdmittedBy others row :=
  forall_congr' fun step => by rw [h step]

section Laws

variable (set : RowSet) (first second : Context) (grain other : List String)

/-- **Narrowing is conjunctive and free of order.** The rows that are left, in their places, are
those that are within every filter that is not null and whose dimension belongs to the grain. Two
narrowings may change places, a second one by the same filters changes nothing, and under one grain
contexts without a name in common may be laid over each other. After any narrowings every answer of
the set is that of the list of rows which all of them admit. -/
theorem narrowToGrain_conjunctive (steps : List (Context × List String)) :
    (set.narrowToGrain first grain).indexed =
        set.indexed.filter (fun entry => decide (first.Admits grain entry.1)) ∧
      ((set.narrowToGrain first grain).narrowToGrain second other).indexed =
        ((set.narrowToGrain second other).narrowToGrain first grain).indexed ∧
      ((set.narrowToGrain first grain).narrowToGrain first grain).indexed =
        (set.narrowToGrain first grain).indexed ∧
      ((∀ name, first.get? name = none ∨ second.get? name = none) →
        ((set.narrowToGrain first grain).narrowToGrain second grain).indexed =
          (set.narrowToGrain (first.overlay second) grain).indexed) ∧
      (set.narrowAll steps).Answers
        (set.rows.filter fun row => decide (AdmittedBy steps row)) := by
  have hsingle : ∀ (context : Context) row,
      AdmittedBy [(context, grain)] row ↔ context.Admits grain row :=
    fun _ _ => List.forall_mem_singleton
  refine ⟨(asks_narrowToGrain first grain).indexed set, ?_, ?_, fun hdisjoint => ?_,
    answers_of_rows ((asks_narrowAll steps).rows set)⟩
  · exact @indexed_narrowAll_congr set [(first, grain), (second, other)]
      [(second, other), (first, grain)] (admittedBy_congr fun _ => (List.Perm.swap ..).mem_iff)
  · refine @indexed_narrowAll_congr set [(first, grain), (first, grain)] [(first, grain)]
      (admittedBy_congr fun step => ?_)
    rw [List.mem_cons, List.mem_singleton, or_self_iff]
  · refine @indexed_narrowAll_congr set [(first, grain), (second, grain)]
      [(first.overlay second, grain)] fun row => ?_
    rw [hsingle, Context.admits_overlay_iff hdisjoint, AdmittedBy, List.forall_mem_cons,
      List.forall_mem_singleton]

end Laws

def inEurope : Context := Context.withFilter .empty "region" (.equals (.string "EU"))

def since2025 : Context := Context.withRange .empty "year" (.atLeast (.int 2025))

def yearlyRows : List Row :=
  [("EU", 2024), ("NA", 2025), ("EU", 2025)].map fun (region, year) =>
    KeyMap.ofList [("region", .string region), ("year", .int year)]

/-- The region and then the year, or both at once: the third row is left. -/
theorem narrowToGrain_conjunctive_inEurope :
    (∀ name, inEurope.get? name = none ∨ since2025.get? name = none) ∧
      (((ofRows yearlyRows).narrowToGrain inEurope ["region", "year"]).narrowToGrain since2025
          ["region", "year"]).indexed =
        ((ofRows yearlyRows).narrowToGrain (inEurope.overlay since2025)
          ["region", "year"]).indexed ∧
      ((ofRows yearlyRows).narrowToGrain (inEurope.overlay since2025)
        ["region", "year"]).indexed.map (·.2) = [2] := by
  have hdisjoint : ∀ name, inEurope.get? name = none ∨ since2025.get? name = none := by
    intro name
    by_cases hname : name = "region"
    · exact .inr (by rw [hname]; decide +kernel)
    · refine .inl ?_
      rw [inEurope, Context.withFilter, KeyMap.get?_insert, if_neg hname, KeyMap.get?_empty]
  obtain ⟨-, -, -, hmerge, -⟩ := narrowToGrain_conjunctive (ofRows yearlyRows) inEurope since2025
    ["region", "year"] ["region", "year"] []
  exact ⟨hdisjoint, hmerge hdisjoint, by decide +kernel⟩

end RowSet

end MetricLayer
