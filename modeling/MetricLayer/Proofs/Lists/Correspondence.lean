import Mathlib.Data.List.Forall2

namespace MetricLayer

theorem mapM_eq_some_iff {α β : Type} {f : α → Option β} {items : List α} {values : List β} :
    items.mapM f = some values ↔
      List.Forall₂ (fun item value => f item = some value) items values := by
  induction items generalizing values with
  | nil => simp [eq_comm]
  | cons head rest ih =>
      cases values with
      | nil => simp [Option.bind_eq_some_iff]
      | cons value values => simp [Option.bind_eq_some_iff, ih]

theorem exists_mapM_iff {α β : Type} {f : α → Option β} {items : List α} :
    (∃ values, items.mapM f = some values) ↔ ∀ item ∈ items, ∃ value, f item = some value := by
  induction items with
  | nil => simp
  | cons head rest ih =>
      rw [List.forall_mem_cons, ← ih]
      constructor
      · rintro ⟨values, hvalues⟩
        cases mapM_eq_some_iff.mp hvalues with
        | cons hhead hrest => exact ⟨⟨_, hhead⟩, _, mapM_eq_some_iff.mpr hrest⟩
      · rintro ⟨⟨value, hvalue⟩, values, hvalues⟩
        exact ⟨_, mapM_eq_some_iff.mpr (.cons hvalue (mapM_eq_some_iff.mp hvalues))⟩

theorem forall₂_of_mapM_ok {ε α β : Type} {evaluate : α → Except ε β} {items : List α}
    {values : List β} (h : items.mapM evaluate = .ok values) :
    List.Forall₂ (fun item value => evaluate item = .ok value) items values := by
  induction items generalizing values with
  | nil =>
      obtain rfl := Except.ok.inj h
      exact .nil
  | cons head rest ih =>
      rw [List.mapM_cons] at h
      cases hhead : evaluate head with
      | error error =>
          rw [hhead] at h
          cases h
      | ok value =>
          rw [hhead] at h
          cases hrest : rest.mapM evaluate with
          | error error =>
              rw [hrest] at h
              cases h
          | ok others =>
              rw [hrest] at h
              obtain rfl := Except.ok.inj h
              exact .cons hhead (ih hrest)

theorem exists_of_forall₂ {α β : Type} {relation : α → β → Prop} {items : List α} {values : List β}
    (h : List.Forall₂ relation items values) {value : β} (hvalue : value ∈ values) :
    ∃ item ∈ items, relation item value := by
  induction h with
  | nil => cases hvalue
  | @cons head _ rest _ hhead _ ih =>
      rcases List.mem_cons.mp hvalue with rfl | hvalue
      · exact ⟨head, List.mem_cons_self, hhead⟩
      · obtain ⟨item, hitem, hrelated⟩ := ih hvalue
        exact ⟨item, List.mem_cons_of_mem _ hitem, hrelated⟩

theorem forall₂_of_common {α β γ : Type} {first : α → β → Prop} {second : α → γ → Prop}
    {relation : β → γ → Prop} {items : List α} {values : List β} {others : List γ}
    (hfirst : List.Forall₂ first items values) (hsecond : List.Forall₂ second items others)
    (h : ∀ item value other, first item value → second item other → relation value other) :
    List.Forall₂ relation values others := by
  induction hfirst generalizing others with
  | nil =>
      cases hsecond
      exact .nil
  | cons hhead _ ih =>
      cases hsecond with
      | cons hhead' hrest => exact .cons (h _ _ _ hhead hhead') (ih hrest)

theorem getLast?_of_forall₂ {α β : Type} {relation : α → β → Prop} {items : List α}
    {values : List β} (h : List.Forall₂ relation items values) :
    match items.getLast? with
    | none => values.getLast? = none
    | some item => ∃ value, values.getLast? = some value ∧ relation item value := by
  have hreverse := List.forall₂_reverse_iff.mpr h
  rw [List.getLast?_eq_head?_reverse, List.getLast?_eq_head?_reverse]
  generalize items.reverse = lasts at *
  generalize values.reverse = others at *
  cases hreverse with
  | nil => rfl
  | cons hlast _ => exact ⟨_, rfl, hlast⟩

end MetricLayer
