/-!
# Maps with ordered keys

A finite map from names to values that lists its entries by ascending name, code point by code
point. The order is part of the type, so a map is determined by what it holds and not by how it was
filled: `KeyMap.ext_get?` says that two maps with the same look-ups are the same map.
-/

namespace MetricLayer

structure KeyMap (α : Type) where
  entries : List (String × α)
  sorted : entries.Pairwise (fun a b => a.1 < b.1)

namespace KeyMap

variable {α β : Type}

def empty : KeyMap α := ⟨[], .nil⟩

instance : Inhabited (KeyMap α) := ⟨empty⟩

def toList (map : KeyMap α) : List (String × α) := map.entries

def keys (map : KeyMap α) : List String := map.entries.map (·.1)

def values (map : KeyMap α) : List α := map.entries.map (·.2)

def size (map : KeyMap α) : Nat := map.entries.length

def isEmpty (map : KeyMap α) : Bool := map.entries.isEmpty

def get? (map : KeyMap α) (key : String) : Option α := map.entries.lookup key

def contains (map : KeyMap α) (key : String) : Bool := (map.get? key).isSome

/-- Puts the entry at its place; an entry with the same name gives way to it. -/
def insertEntry (key : String) (value : α) : List (String × α) → List (String × α)
  | [] => [(key, value)]
  | (name, held) :: rest =>
      if key = name then (key, value) :: rest
      else if key < name then (key, value) :: (name, held) :: rest
      else (name, held) :: insertEntry key value rest

theorem mem_insertEntry {key : String} {value : α} {entry : String × α}
    {entries : List (String × α)} (h : entry ∈ insertEntry key value entries) :
    entry = (key, value) ∨ entry ∈ entries := by
  induction entries with
  | nil => simpa [insertEntry] using h
  | cons head rest ih =>
      unfold insertEntry at h
      split at h
      · simp only [List.mem_cons] at h ⊢
        exact h.imp id .inr
      · split at h
        · simpa using h
        · simp only [List.mem_cons] at h ⊢
          exact h.elim (fun here => .inr (.inl here)) fun there => (ih there).imp id .inr

theorem name_lt_of_not {key name : String} (hne : key ≠ name) (hlt : ¬ key < name) :
    name < key := by
  rcases String.le_total key name with h | h
  · exact absurd (String.le_antisymm h (String.not_lt.mp hlt)) hne
  · exact String.not_le.mp fun hle => hne (String.le_antisymm hle h)

theorem sorted_insertEntry {key : String} {value : α} {entries : List (String × α)}
    (h : entries.Pairwise (fun a b => a.1 < b.1)) :
    (insertEntry key value entries).Pairwise (fun a b => a.1 < b.1) := by
  induction entries with
  | nil => simp [insertEntry]
  | cons head rest ih =>
      rw [List.pairwise_cons] at h
      unfold insertEntry
      split
      · rename_i heq
        exact List.pairwise_cons.mpr ⟨fun entry hmem => heq ▸ h.1 entry hmem, h.2⟩
      · split
        · rename_i hlt
          refine List.pairwise_cons.mpr ⟨fun entry hmem => ?_, List.pairwise_cons.mpr h⟩
          rcases List.mem_cons.mp hmem with rfl | hrest
          · exact hlt
          · exact String.lt_trans hlt (h.1 entry hrest)
        · rename_i hne hlt
          refine List.pairwise_cons.mpr ⟨fun entry hmem => ?_, ih h.2⟩
          rcases mem_insertEntry hmem with rfl | hrest
          · exact name_lt_of_not hne hlt
          · exact h.1 entry hrest

def insert (map : KeyMap α) (key : String) (value : α) : KeyMap α :=
  ⟨insertEntry key value map.entries, sorted_insertEntry map.sorted⟩

def erase (map : KeyMap α) (key : String) : KeyMap α :=
  ⟨map.entries.filter (fun entry => entry.1 != key), map.sorted.filter _⟩

/-- Of two entries with the same name the later one counts. -/
def ofList (entries : List (String × α)) : KeyMap α :=
  entries.foldl (fun map entry => map.insert entry.1 entry.2) empty

def sortNames (names : List String) : List String :=
  (ofList (names.map fun name => (name, ()))).keys

/-- Lays the second map over the first: where both have a name, the second wins. -/
def overlay (map other : KeyMap α) : KeyMap α :=
  other.entries.foldl (fun result entry => result.insert entry.1 entry.2) map

def map (f : α → β) (entries : KeyMap α) : KeyMap β :=
  ⟨entries.entries.map (fun entry => (entry.1, f entry.2)), by
    rw [List.pairwise_map]
    exact entries.sorted⟩

theorem lookup_cons_ite (name : String) (entry : String × α) (rest : List (String × α)) :
    (entry :: rest).lookup name = if name = entry.1 then some entry.2 else rest.lookup name := by
  rw [List.lookup_cons]
  by_cases h : name = entry.1
  · simp [h]
  · have : (name == entry.1) = false := by simpa using h
    simp [this, h]

theorem lookup_insertEntry (key name : String) (value : α) (entries : List (String × α)) :
    (insertEntry key value entries).lookup name =
      if name = key then some value else entries.lookup name := by
  induction entries with
  | nil => simp [insertEntry, lookup_cons_ite]
  | cons head rest ih =>
      unfold insertEntry
      split
      · rename_i heq
        simp only [lookup_cons_ite, ← heq]
        split <;> rfl
      · split
        · simp only [lookup_cons_ite]
        · rename_i hne _
          simp only [lookup_cons_ite, ih]
          by_cases h : name = key
          · simp [h, hne]
          · simp [h]

@[simp]
theorem get?_empty (name : String) : (empty : KeyMap α).get? name = none := rfl

theorem get?_insert (map : KeyMap α) (key name : String) (value : α) :
    (map.insert key value).get? name = if name = key then some value else map.get? name :=
  lookup_insertEntry key name value map.entries

theorem lookup_filter_ne (key name : String) (entries : List (String × α)) :
    (entries.filter (fun entry => entry.1 != key)).lookup name =
      if name = key then none else entries.lookup name := by
  induction entries with
  | nil => simp
  | cons head rest ih =>
      rw [List.filter_cons]
      split
      · rename_i hkeep
        have hhead : head.1 ≠ key := by simpa using hkeep
        simp only [lookup_cons_ite, ih]
        by_cases h : name = key
        · simp [h, Ne.symm hhead]
        · simp [h]
      · rename_i hdrop
        have hhead : head.1 = key := by simpa using hdrop
        simp only [lookup_cons_ite, ih, hhead]
        by_cases h : name = key <;> simp [h]

theorem get?_erase (map : KeyMap α) (key name : String) :
    (map.erase key).get? name = if name = key then none else map.get? name :=
  lookup_filter_ne key name map.entries

theorem ext {first second : KeyMap α} (h : first.entries = second.entries) : first = second := by
  cases first
  cases second
  simp only at h
  subst h
  rfl

theorem lookup_eq_none_of_lt {name : String} {entries : List (String × α)}
    (h : ∀ entry ∈ entries, name < entry.1) : entries.lookup name = none := by
  induction entries with
  | nil => rfl
  | cons head rest ih =>
      have hne : name ≠ head.1 := fun heq =>
        String.lt_irrefl name (heq ▸ h head (by simp))
      rw [lookup_cons_ite, if_neg hne]
      exact ih fun entry hmem => h entry (by simp [hmem])

theorem entries_eq_of_lookup {first second : List (String × α)}
    (hfirst : first.Pairwise (fun a b => a.1 < b.1))
    (hsecond : second.Pairwise (fun a b => a.1 < b.1))
    (h : ∀ name, first.lookup name = second.lookup name) : first = second := by
  induction first generalizing second with
  | nil =>
      cases second with
      | nil => rfl
      | cons head rest => simpa [lookup_cons_ite] using h head.1
  | cons head rest ih =>
      cases second with
      | nil => simpa [lookup_cons_ite] using h head.1
      | cons other tail =>
          rw [List.pairwise_cons] at hfirst hsecond
          have hname : head.1 = other.1 := by
            by_cases hlt : head.1 < other.1
            · have hnone : (other :: tail).lookup head.1 = none := by
                apply lookup_eq_none_of_lt
                intro entry hmem
                rcases List.mem_cons.mp hmem with rfl | hrest
                · exact hlt
                · exact String.lt_trans hlt (hsecond.1 entry hrest)
              have := h head.1
              rw [hnone] at this
              simp [lookup_cons_ite] at this
            · by_cases heq : head.1 = other.1
              · exact heq
              · have hgt := name_lt_of_not heq hlt
                have hnone : (head :: rest).lookup other.1 = none := by
                  apply lookup_eq_none_of_lt
                  intro entry hmem
                  rcases List.mem_cons.mp hmem with rfl | hrest
                  · exact hgt
                  · exact String.lt_trans hgt (hfirst.1 entry hrest)
                have := h other.1
                rw [hnone] at this
                simp [lookup_cons_ite] at this
          have hvalue : head.2 = other.2 := by
            have := h head.1
            simpa [lookup_cons_ite, hname] using this
          have hhead : head = other := Prod.ext hname hvalue
          subst hhead
          congr 1
          refine ih hfirst.2 hsecond.2 fun name => ?_
          by_cases hat : name = head.1
          · subst hat
            rw [lookup_eq_none_of_lt hfirst.1, lookup_eq_none_of_lt hsecond.1]
          · have := h name
            simpa [lookup_cons_ite, hat] using this

theorem ext_get? {first second : KeyMap α} (h : ∀ name, first.get? name = second.get? name) :
    first = second :=
  ext (entries_eq_of_lookup first.sorted second.sorted h)

end KeyMap

end MetricLayer
