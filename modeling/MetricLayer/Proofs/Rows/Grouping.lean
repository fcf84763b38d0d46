import MetricLayer.Rows
import MetricLayer.Proofs.Lists.FirstOccurrences
import Mathlib.Data.List.Basic

namespace MetricLayer

section Groups

variable {κ α : Type} [DecidableEq κ]

/-- Adding an item to groups that hold the items of each key: a new key comes last. -/
theorem addToGroups_map {keys : List κ} (hnodup : keys.Nodup) {held : κ → List α} {key : κ}
    (hfresh : key ∉ keys → held key = []) (item : α) :
    addToGroups key item (keys.map fun k => (k, held k)) =
      (if key ∈ keys then keys else keys ++ [key]).map fun k =>
        (k, if k = key then held k ++ [item] else held k) := by
  induction keys with
  | nil => simp [addToGroups, hfresh List.not_mem_nil]
  | cons head rest ih =>
      rw [List.nodup_cons] at hnodup
      rw [List.map_cons, addToGroups]
      by_cases hhead : head = key
      · subst hhead
        have hothers : ∀ k ∈ rest, k ≠ head := fun k hk heq => hnodup.1 (heq ▸ hk)
        rw [if_pos rfl, if_pos List.mem_cons_self, List.map_cons, if_pos rfl]
        congr 1
        refine List.map_congr_left fun k hk => ?_
        rw [if_neg (hothers k hk)]
      · have hiff : key ∈ head :: rest ↔ key ∈ rest := by simp [Ne.symm hhead]
        rw [if_neg hhead, ih hnodup.2 fun hrest => hfresh fun hmem => hrest (hiff.mp hmem)]
        simp only [hiff]
        split <;> simp [hhead]

theorem groupBy_concat (key : α → κ) (items : List α) (item : α) :
    groupBy key (items ++ [item]) = addToGroups (key item) item (groupBy key items) := by
  rw [groupBy, List.foldl_append]
  rfl

/-- One group for each key in the order of first occurrences, with all items of the key. -/
theorem groupBy_eq (key : α → κ) (items : List α) :
    groupBy key items =
      (items.map key).eraseDups.map fun k => (k, items.filter fun item => key item = k) := by
  induction items using List.reverseRecOn with
  | nil => rfl
  | append_singleton items item ih =>
      have hfresh : key item ∉ (items.map key).eraseDups →
          (items.filter fun other => key other = key item) = [] := by
        intro hkey
        refine List.filter_eq_nil_iff.mpr fun other hother heq => hkey ?_
        rw [List.mem_eraseDups, ← of_decide_eq_true heq]
        exact List.mem_map_of_mem hother
      rw [groupBy_concat, ih, addToGroups_map (nodup_eraseDups _) hfresh, List.map_append,
        List.map_singleton, eraseDups_concat]
      simp only [List.mem_eraseDups]
      refine List.map_congr_left fun k _ => ?_
      rw [List.filter_append]
      by_cases hk : key item = k
      · simp [hk]
      · simp [hk, Ne.symm hk]

theorem mem_of_mem_groupBy {key : α → κ} {items : List α} {group : κ × List α}
    (h : group ∈ groupBy key items) {item : α} (hitem : item ∈ group.2) : item ∈ items := by
  rw [groupBy_eq] at h
  obtain ⟨k, _, rfl⟩ := List.mem_map.mp h
  exact (List.mem_filter.mp hitem).1

/-- The first items of the groups are the first items of their keys. -/
theorem map_key_heads_groupBy (key : α → κ) (items : List α) :
    ((groupBy key items).filterMap fun group => group.2.head?).map key =
      (items.map key).eraseDups := by
  rw [groupBy_eq, List.filterMap_map, List.map_filterMap]
  have hhead : ∀ k ∈ (items.map key).eraseDups,
      ((items.filter fun item => key item = k).head?).map key = some k := by
    intro k hk
    obtain ⟨item, hitem, rfl⟩ := List.mem_map.mp (List.mem_eraseDups.mp hk)
    cases hfind : (items.filter fun other => key other = key item).head? with
    | none =>
        have hnil := List.filter_eq_nil_iff.mp (List.head?_eq_none_iff.mp hfind) item hitem
        exact absurd (decide_eq_true rfl) hnil
    | some first =>
        have hfirst := List.mem_filter.mp (List.mem_of_head? hfind)
        rw [Option.map_some, of_decide_eq_true hfirst.2]
  exact (List.filterMap_congr hhead).trans (List.filterMap_some)

end Groups

end MetricLayer
