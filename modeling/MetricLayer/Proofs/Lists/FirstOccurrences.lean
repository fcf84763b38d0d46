import Mathlib.Data.List.Induction

namespace MetricLayer

variable {κ : Type} [DecidableEq κ]

theorem eraseDups_concat (keys : List κ) (key : κ) :
    (keys ++ [key]).eraseDups = if key ∈ keys then keys.eraseDups else keys.eraseDups ++ [key] := by
  rw [List.eraseDups_append, List.removeAll]
  by_cases hkey : key ∈ keys
  · simp [hkey]
  · simp [hkey, List.eraseDups_cons]

theorem nodup_eraseDups (keys : List κ) : keys.eraseDups.Nodup := by
  induction keys using List.reverseRecOn with
  | nil => exact List.nodup_nil
  | append_singleton keys key ih =>
      rw [eraseDups_concat]
      split
      · exact ih
      · rename_i hkey
        rw [List.nodup_append]
        refine ⟨ih, by simp, ?_⟩
        rintro held hheld _ hlast rfl
        obtain rfl := List.mem_singleton.mp hlast
        exact hkey (List.mem_eraseDups.mp hheld)

theorem eraseDups_sublist (keys : List κ) : keys.eraseDups.Sublist keys := by
  induction keys using List.reverseRecOn with
  | nil => exact .slnil
  | append_singleton keys key ih =>
      rw [eraseDups_concat]
      split
      · exact ih.trans (List.sublist_append_left keys [key])
      · exact ih.append (List.Sublist.refl [key])

/-- Of two keys that are kept, the earlier one occurs before the later one does. -/
theorem pairwise_eraseDups (keys : List κ) :
    keys.eraseDups.Pairwise fun first second =>
      ∃ before after, keys = before ++ first :: after ∧ second ∉ before := by
  induction keys using List.reverseRecOn with
  | nil => exact .nil
  | append_singleton keys key ih =>
      have hlonger : keys.eraseDups.Pairwise fun first second =>
          ∃ before after, keys ++ [key] = before ++ first :: after ∧ second ∉ before := by
        refine ih.imp ?_
        rintro first second ⟨before, after, rfl, hsecond⟩
        exact ⟨before, after ++ [key], by simp, hsecond⟩
      rw [eraseDups_concat]
      split
      · exact hlonger
      · rename_i hkey
        refine List.pairwise_append.mpr ⟨hlonger, List.pairwise_singleton _ _, ?_⟩
        intro first hfirst second hsecond
        obtain rfl := List.mem_singleton.mp hsecond
        obtain ⟨before, after, rfl⟩ := List.append_of_mem (List.mem_eraseDups.mp hfirst)
        exact ⟨before, after ++ [second], by simp, fun hmem => hkey (by simp [hmem])⟩

/-- Kept keys stand in the order of their first positions. -/
theorem pairwise_idxOf_eraseDups (keys : List κ) :
    keys.eraseDups.Pairwise fun first second => keys.idxOf first < keys.idxOf second := by
  refine ((pairwise_eraseDups keys).and (nodup_eraseDups keys)).imp ?_
  rintro first second ⟨⟨before, after, rfl, hsecond⟩, hne⟩
  have hfirst : (before ++ first :: after).idxOf first ≤ before.length := by
    rw [List.idxOf_append]
    split
    · exact List.idxOf_le_length
    · simp
  have hlater : (before ++ first :: after).idxOf second =
      after.idxOf second + 1 + before.length := by
    rw [List.idxOf_append, if_neg hsecond, List.idxOf_cons, beq_false_of_ne hne, cond_false]
  omega

end MetricLayer
