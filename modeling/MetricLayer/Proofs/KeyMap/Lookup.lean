import MetricLayer.KeyMap

/-!
# Entries and look-ups

A map holds an entry exactly when the look-up of its name gives the value, and each name once. What
`ofList`, `overlay`, `map` and `sortNames` build is said through look-ups as well.
-/

namespace MetricLayer.KeyMap

variable {α β : Type}

theorem lookup_of_mem_of_nodup {entries : List (String × α)} (hnodup : (entries.map (·.1)).Nodup)
    {entry : String × α} (hmem : entry ∈ entries) : entries.lookup entry.1 = some entry.2 := by
  induction entries with
  | nil => cases hmem
  | cons head rest ih =>
      rw [List.map_cons, List.nodup_cons] at hnodup
      rw [lookup_cons_ite]
      rcases List.mem_cons.mp hmem with rfl | hrest
      · rw [if_pos rfl]
      · have hne : entry.1 ≠ head.1 := fun heq =>
          hnodup.1 (heq ▸ List.mem_map_of_mem (f := Prod.fst) hrest)
        rw [if_neg hne]
        exact ih hnodup.2 hrest

theorem lookup_eq_some_of_mem {entries : List (String × α)}
    (hsorted : entries.Pairwise (fun a b => a.1 < b.1)) {entry : String × α}
    (hmem : entry ∈ entries) : entries.lookup entry.1 = some entry.2 := by
  refine lookup_of_mem_of_nodup (List.pairwise_map.mpr (hsorted.imp ?_)) hmem
  intro first second hlt heq
  exact String.lt_irrefl second.1 (heq ▸ hlt)

theorem mem_of_lookup_eq_some {entries : List (String × α)} {name : String} {value : α}
    (h : entries.lookup name = some value) : (name, value) ∈ entries := by
  obtain ⟨before, after, rfl, _⟩ := List.lookup_eq_some_iff.mp h
  exact List.mem_append_right before List.mem_cons_self

theorem mem_toList_iff {map : KeyMap α} {name : String} {value : α} :
    (name, value) ∈ map.toList ↔ map.get? name = some value :=
  ⟨fun h => lookup_eq_some_of_mem map.sorted h, mem_of_lookup_eq_some⟩

theorem mem_keys_iff {map : KeyMap α} {name : String} :
    name ∈ map.keys ↔ ∃ value, map.get? name = some value := by
  constructor
  · intro h
    obtain ⟨⟨held, value⟩, hmem, rfl⟩ := List.mem_map.mp h
    exact ⟨value, mem_toList_iff.mp hmem⟩
  · rintro ⟨value, h⟩
    exact List.mem_map.mpr ⟨(name, value), mem_toList_iff.mpr h, rfl⟩

theorem mem_values_iff {map : KeyMap α} {value : α} :
    value ∈ map.values ↔ ∃ name, map.get? name = some value := by
  constructor
  · intro h
    obtain ⟨⟨name, held⟩, hmem, rfl⟩ := List.mem_map.mp h
    exact ⟨name, mem_toList_iff.mp hmem⟩
  · rintro ⟨name, h⟩
    exact List.mem_map.mpr ⟨(name, value), mem_toList_iff.mpr h, rfl⟩

theorem contains_iff {map : KeyMap α} {name : String} :
    map.contains name = true ↔ ∃ value, map.get? name = some value :=
  Option.isSome_iff_exists

theorem contains_eq_false_iff {map : KeyMap α} {name : String} :
    map.contains name = false ↔ map.get? name = none := by
  rw [contains, Option.isSome_eq_false_iff, Option.isNone_iff_eq_none]

theorem mem_keys_iff_contains {map : KeyMap α} {name : String} :
    name ∈ map.keys ↔ map.contains name = true :=
  mem_keys_iff.trans contains_iff.symm

theorem keys_sorted (map : KeyMap α) : map.keys.Pairwise (· < ·) :=
  List.pairwise_map.mpr map.sorted

theorem keys_nodup (map : KeyMap α) : map.keys.Nodup := by
  refine map.keys_sorted.imp ?_
  rintro name _ hlt rfl
  exact String.lt_irrefl name hlt

@[simp]
theorem length_keys (map : KeyMap α) : map.keys.length = map.size := List.length_map ..

theorem get?_foldl_insert (entries : List (String × α)) (map : KeyMap α) (name : String) :
    (entries.foldl (fun result entry => result.insert entry.1 entry.2) map).get? name =
      (entries.reverse.lookup name).or (map.get? name) := by
  induction entries generalizing map with
  | nil => rfl
  | cons head rest ih =>
      rw [List.foldl_cons, ih, get?_insert, List.reverse_cons, List.lookup_append,
        lookup_cons_ite, List.lookup_nil]
      split <;> cases rest.reverse.lookup name <;> rfl

/-- The last entry of a name counts. -/
theorem get?_ofList (entries : List (String × α)) (name : String) :
    (ofList entries).get? name = entries.reverse.lookup name := by
  rw [ofList, get?_foldl_insert, get?_empty, Option.or_none]

theorem lookup_eq_head?_filter (entries : List (String × α)) (name : String) :
    entries.lookup name = ((entries.filter fun entry => entry.1 == name).head?).map (·.2) := by
  induction entries with
  | nil => rfl
  | cons head rest ih =>
      rw [lookup_cons_ite, ih]
      by_cases h : name = head.1
      · simp [h]
      · simp [h, Ne.symm h]

theorem get?_ofList_eq_getLast? (entries : List (String × α)) (name : String) :
    (ofList entries).get? name =
      ((entries.filter fun entry => entry.1 == name).getLast?).map (·.2) := by
  rw [get?_ofList, lookup_eq_head?_filter, List.filter_reverse, List.head?_reverse]

/-- The look-up from the end finds the last entry of a name. -/
theorem lookup_reverse_eq_some_iff {entries : List (String × α)} {name : String} {value : α} :
    entries.reverse.lookup name = some value ↔
      ∃ before after, entries = before ++ (name, value) :: after ∧ name ∉ after.map (·.1) := by
  have hlater : ∀ later : List (String × α),
      (∀ entry ∈ later, (name != entry.1) = true) ↔ name ∉ later.reverse.map (·.1) := by
    intro later
    simp only [List.map_reverse, List.mem_reverse, List.mem_map, not_exists, not_and, bne_iff_ne]
    exact ⟨fun h entry hentry heq => h entry hentry heq.symm,
      fun h entry hentry heq => h entry hentry heq.symm⟩
  rw [List.lookup_eq_some_iff]
  constructor
  · rintro ⟨later, earlier, hsplit, hfresh⟩
    refine ⟨earlier.reverse, later.reverse, ?_, (hlater later).mp hfresh⟩
    rw [← List.reverse_reverse entries, hsplit]
    simp
  · rintro ⟨before, after, rfl, hfresh⟩
    refine ⟨after.reverse, before.reverse, by simp, (hlater _).mpr ?_⟩
    rwa [List.reverse_reverse]

theorem lookup_reverse_of_nodup {entries : List (String × α)}
    (hnodup : (entries.map (·.1)).Nodup) (name : String) :
    entries.reverse.lookup name = entries.lookup name := by
  induction entries with
  | nil => rfl
  | cons head rest ih =>
      rw [List.map_cons, List.nodup_cons] at hnodup
      rw [List.reverse_cons, List.lookup_append, ih hnodup.2, lookup_cons_ite, lookup_cons_ite,
        List.lookup_nil]
      split
      · rename_i heq
        cases hrest : rest.lookup name with
        | none => rfl
        | some value =>
            refine absurd (List.mem_map.mpr ⟨(name, value), mem_of_lookup_eq_some hrest, ?_⟩)
              hnodup.1
            exact heq
      · rw [Option.or_none]

@[simp]
theorem ofList_toList (map : KeyMap α) : ofList map.toList = map := by
  refine ext_get? fun name => ?_
  rw [get?_ofList, toList, lookup_reverse_of_nodup map.keys_nodup, get?]

theorem lookup_map_mk (f : String → α) (names : List String) (name : String) :
    (names.map fun name => (name, f name)).lookup name =
      if name ∈ names then some (f name) else none := by
  induction names with
  | nil => rfl
  | cons head rest ih =>
      rw [List.map_cons, lookup_cons_ite, ih]
      by_cases hhead : name = head
      · simp [hhead]
      · simp [hhead]

/-- Where both maps have a name, the second one wins. -/
theorem get?_overlay (map other : KeyMap α) (name : String) :
    (map.overlay other).get? name = (other.get? name).or (map.get? name) := by
  rw [overlay, get?_foldl_insert, lookup_reverse_of_nodup other.keys_nodup]
  rfl

theorem get?_map (f : α → β) (map : KeyMap α) (name : String) :
    (map.map f).get? name = (map.get? name).map f := by
  have hlookup : ∀ entries : List (String × α),
      (entries.map fun entry => (entry.1, f entry.2)).lookup name =
        (entries.lookup name).map f := by
    intro entries
    induction entries with
    | nil => rfl
    | cons head rest ih =>
        rw [List.map_cons, lookup_cons_ite, lookup_cons_ite, ih]
        split <;> rfl
  exact hlookup map.entries

/-- Maps that hold the same names list them alike. -/
theorem keys_eq_of_isSome {first : KeyMap α} {second : KeyMap β}
    (h : ∀ name, (first.get? name).isSome = (second.get? name).isSome) :
    first.keys = second.keys := by
  have hunits : first.map (fun _ => ()) = second.map (fun _ => ()) := by
    refine ext_get? fun name => ?_
    rw [get?_map, get?_map]
    have hname := h name
    cases hfirst : first.get? name <;> cases hsecond : second.get? name <;>
      simp [hfirst, hsecond] at hname ⊢
  have hkeys : ∀ {γ : Type} (map : KeyMap γ), (map.map fun _ => ()).keys = map.keys :=
    fun map => List.map_map
  rw [← hkeys first, hunits, hkeys second]

theorem mem_sortNames_iff {names : List String} {name : String} :
    name ∈ sortNames names ↔ name ∈ names := by
  rw [sortNames, mem_keys_iff_contains, contains, get?_ofList, List.lookup_isSome_iff]
  simp

end MetricLayer.KeyMap
