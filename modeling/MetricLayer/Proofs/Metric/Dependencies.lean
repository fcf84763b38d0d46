import MetricLayer.Metric.Combine
import MetricLayer.Proofs.KeyMap.Lookup
import MetricLayer.Proofs.Lists.FirstOccurrences

/-!
# Maps in the order of insertion

One insert appends a new name and replaces the value of a name that is held. So a run of inserts
leaves the names in the order of their first inserts, each with the value of its last one;
`HoldsInserts` says this of a map, and `holdsInserts_ofList` of every run.
-/

namespace MetricLayer.DependencyValues

variable {values : DependencyValues} {inserts : List (String × Option Float)} {name : String}
  {value : Option Float}

theorem map_fst_insertEntry (name : String) (value : Option Float)
    (entries : List (String × Option Float)) :
    (insertEntry name value entries).map (·.1) =
      if name ∈ entries.map (·.1) then entries.map (·.1) else entries.map (·.1) ++ [name] := by
  induction entries with
  | nil => rfl
  | cons head rest ih =>
      rw [insertEntry]
      by_cases hhead : head.1 = name
      · simp [hhead]
      · rw [if_neg hhead, List.map_cons, ih]
        by_cases hrest : name ∈ rest.map (·.1)
        · simp only [List.map_cons, List.mem_cons, hrest, or_true, if_true]
        · simp only [List.map_cons, List.mem_cons, hrest, Ne.symm hhead, or_self, if_false,
            List.cons_append]

/-- A name keeps its place, and a new one comes last. -/
theorem names_insert (values : DependencyValues) (name : String) (value : Option Float) :
    (values.insert name value).names =
      if name ∈ values.names then values.names else values.names ++ [name] :=
  map_fst_insertEntry name value values.entries

theorem lookup_insertEntry (name other : String) (value : Option Float)
    (entries : List (String × Option Float)) :
    (insertEntry name value entries).lookup other =
      if other = name then some value else entries.lookup other := by
  induction entries with
  | nil => rw [insertEntry, KeyMap.lookup_cons_ite]
  | cons head rest ih =>
      rw [insertEntry]
      split
      · rename_i hhead
        simp only [KeyMap.lookup_cons_ite, hhead]
        split <;> rfl
      · rename_i hhead
        simp only [KeyMap.lookup_cons_ite, ih]
        by_cases hother : other = head.1
        · simp [hother, hhead]
        · simp [hother]

theorem lookup_insert (values : DependencyValues) (name other : String) (value : Option Float) :
    (values.insert name value).entries.lookup other =
      if other = name then some value else values.entries.lookup other :=
  lookup_insertEntry name other value values.entries

theorem ofList_concat (inserts : List (String × Option Float)) (entry : String × Option Float) :
    ofList (inserts ++ [entry]) = (ofList inserts).insert entry.1 entry.2 :=
  List.foldl_append ..

theorem names_ofList (inserts : List (String × Option Float)) :
    (ofList inserts).names = (inserts.map (·.1)).eraseDups := by
  induction inserts using List.reverseRecOn with
  | nil => rfl
  | append_singleton inserts entry ih =>
      rw [ofList_concat, names_insert, ih, List.map_append, List.map_singleton, eraseDups_concat]
      simp only [List.mem_eraseDups]

theorem nodup_names_ofList (inserts : List (String × Option Float)) :
    (ofList inserts).names.Nodup :=
  names_ofList inserts ▸ nodup_eraseDups _

/-- The last insert of a name counts. -/
theorem lookup_ofList (inserts : List (String × Option Float)) (name : String) :
    (ofList inserts).entries.lookup name = inserts.reverse.lookup name := by
  -- From the end: an insert overrides the ones before it.
  induction inserts using List.reverseRecOn with
  | nil => rfl
  | append_singleton inserts entry ih =>
      rw [ofList_concat, lookup_insert, ih, List.reverse_append, List.reverse_singleton,
        List.singleton_append, KeyMap.lookup_cons_ite]

theorem mem_entries_iff (hnodup : values.names.Nodup) :
    (name, value) ∈ values.entries ↔ values.entries.lookup name = some value :=
  ⟨KeyMap.lookup_of_mem_of_nodup hnodup, KeyMap.mem_of_lookup_eq_some⟩

theorem mem_entries_ofList_iff :
    (name, value) ∈ (ofList inserts).entries ↔
      ∃ before after, inserts = before ++ (name, value) :: after ∧ name ∉ after.map (·.1) := by
  rw [mem_entries_iff (nodup_names_ofList inserts), lookup_ofList,
    KeyMap.lookup_reverse_eq_some_iff]

theorem mem_of_mem_entries_ofList {entry : String × Option Float}
    (h : entry ∈ (ofList inserts).entries) : entry ∈ inserts := by
  obtain ⟨before, after, hsplit, -⟩ := mem_entries_ofList_iff.mp h
  rw [hsplit]
  exact List.mem_append_right before List.mem_cons_self

theorem get?_of_mem_entries (hnodup : values.names.Nodup)
    (h : (name, value) ∈ values.entries) : values.get? name = value := by
  rw [get?, (mem_entries_iff hnodup).mp h]
  rfl

theorem get?_of_notMem_names (h : name ∉ values.names) : values.get? name = none := by
  rw [get?]
  cases hfound : values.entries.lookup name with
  | none => rfl
  | some held =>
      have hmem := KeyMap.mem_of_lookup_eq_some hfound
      exact absurd (List.mem_map_of_mem (f := Prod.fst) hmem) h

/-- What a run of inserts leaves: every name once, in the order of the first inserts, with the value
of the last one. A look-up gives the value that is held, and null for other names. -/
structure HoldsInserts (inserts : List (String × Option Float)) (values : DependencyValues) :
    Prop where
  nodup : values.names.Nodup
  mem_names_iff : ∀ name, name ∈ values.names ↔ name ∈ inserts.map (·.1)
  ordered : values.names.Pairwise fun first second =>
    (inserts.map (·.1)).idxOf first < (inserts.map (·.1)).idxOf second
  mem_entries_iff : ∀ name value, (name, value) ∈ values.entries ↔
    ∃ before after, inserts = before ++ (name, value) :: after ∧ name ∉ after.map (·.1)
  get?_of_mem : ∀ name value, (name, value) ∈ values.entries → values.get? name = value
  get?_of_notMem : ∀ name, name ∉ values.names → values.get? name = none

theorem holdsInserts_ofList (inserts : List (String × Option Float)) :
    HoldsInserts inserts (ofList inserts) where
  nodup := nodup_names_ofList inserts
  mem_names_iff := fun name => by rw [names_ofList, List.mem_eraseDups]
  ordered := names_ofList inserts ▸ pairwise_idxOf_eraseDups _
  mem_entries_iff := fun _ _ => mem_entries_ofList_iff
  get?_of_mem := fun _ _ => get?_of_mem_entries (nodup_names_ofList inserts)
  get?_of_notMem := fun _ => get?_of_notMem_names

example :
    (ofList [("revenue", some 100.0), ("budget", none), ("revenue", some 120.0)]).entries =
      [("revenue", some 120.0), ("budget", none)] := rfl

/-- Inserts that never change a value are all held. -/
theorem mem_entries_ofList_iff_of_settled
    (hsettled : ∀ first ∈ inserts, ∀ second ∈ inserts, first.1 = second.1 → first.2 = second.2)
    (entry : String × Option Float) :
    entry ∈ (ofList inserts).entries ↔ entry ∈ inserts := by
  refine ⟨mem_of_mem_entries_ofList, fun hentry => ?_⟩
  have hname : entry.1 ∈ (ofList inserts).names := by
    rw [names_ofList, List.mem_eraseDups]
    exact List.mem_map_of_mem hentry
  obtain ⟨held, hheld, hsame⟩ := List.mem_map.mp hname
  have hvalue : held.2 = entry.2 :=
    hsettled held (mem_of_mem_entries_ofList hheld) entry hentry hsame
  rwa [← Prod.ext hsame hvalue]

theorem entries_ofList (value : String → Option Float) (names : List String) :
    (ofList (names.map fun name => (name, value name))).entries =
      names.eraseDups.map fun name => (name, value name) := by
  have hvalue : ∀ entry ∈ (ofList (names.map fun name => (name, value name))).entries,
      entry = (entry.1, value entry.1) := by
    intro entry hentry
    obtain ⟨name, -, rfl⟩ := List.mem_map.mp (mem_of_mem_entries_ofList hentry)
    rfl
  have hnames : (ofList (names.map fun name => (name, value name))).names = names.eraseDups := by
    rw [names_ofList, List.map_map]
    exact congrArg List.eraseDups (List.map_id names)
  calc (ofList (names.map fun name => (name, value name))).entries
      = (ofList (names.map fun name => (name, value name))).entries.map
          fun entry => (entry.1, value entry.1) := by
        rw [← List.map_congr_left hvalue, List.map_id']
    _ = names.eraseDups.map fun name => (name, value name) := by
        rw [← hnames, DependencyValues.names, List.map_map]
        rfl

end MetricLayer.DependencyValues
