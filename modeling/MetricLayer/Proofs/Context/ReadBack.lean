import MetricLayer.Proofs.Context.Key
import MetricLayer.Proofs.Json.ReadBack

/-!
# Reading context keys back

The key of a context is read filter by filter and bound by bound: if the texts of its values are
read as other values, the key is read as the context of these, without the bounds that become null.
So a context without floating-point numbers and without null bounds is read back as it is.
-/

namespace MetricLayer

namespace Value

/-- The text of the first value in a key is read as the second one. -/
def ReadsAs (value other : Value) : Prop :=
  ∀ levels, Json.ReadsAs levels value.canonical.toJson other.toJson

theorem ofJson?_toJson (value : Value) : ofJson? value.toJson = some value := by
  cases value with
  | int n =>
      change some (ofInt n.toInt) = _
      rw [ofInt, int64?_toInt]
  | _ => rfl

theorem readsAs_self {value : Value} (h : value.FloatFree) : value.ReadsAs value := by
  intro levels
  rw [canonical_of_floatFree h]
  cases value with
  | null => exact Json.readsAs_null levels
  | bool value => exact Json.readsAs_bool levels value
  | int n =>
      have hlow := n.minValue_le_toInt
      have hhigh := n.toInt_lt
      refine Json.readsAs_int levels ?_ ?_
      · exact hlow
      · rw [Json.int64Max]
        omega
  | float x => exact h.elim
  | string text => exact Json.readsAs_string levels text

end Value

namespace Range

/-- The range with its bounds read in some way; a bound that is null is absent. -/
def readBack (read : Value → Value) (range : Range) : Range :=
  range.mapBounds fun value => if (read value).isNull then none else some (read value)

def members (tree : Value → Json) (range : Range) : List (String × Json) :=
  Json.members (fun bound : Bound × Value => bound.1.name) (fun bound => tree bound.2) range.bounds

theorem bounds_mapBounds (f : Value → Value) (range : Range) :
    (range.mapBounds fun value => some (f value)).bounds =
      range.bounds.map fun bound => (bound.1, f bound.2) := by
  rw [bounds, bounds, List.map_filterMap]
  congr 1
  funext bound
  rw [get?_mapBounds]
  cases range.get? bound <;> rfl

theorem toJson_canonical (range : Range) :
    (range.mapBounds fun value => some value.canonical).toJson =
      .object (range.members fun value => value.canonical.toJson) := by
  rw [toJson, bounds_mapBounds, members, Json.members, List.map_map]
  rfl

theorem filterMap_all (entry : Bound → Option (String × Json)) (bound : Bound) :
    (Bound.all.filterMap fun other => if other = bound then entry other else none) =
      (entry bound).toList := by
  cases bound <;> cases hentry : entry _ <;> simp [Bound.all, hentry]

/-- A bound has one member at most. -/
theorem filter_members (tree : Value → Json) (range : Range) (bound : Bound) :
    (range.members tree).filter (fun member => member.1 == bound.name) =
      ((range.get? bound).map fun value => (bound.name, tree value)).toList := by
  have hname : ∀ other : Bound, (other.name == bound.name) = decide (other = bound) := by
    intro other
    cases bound <;> cases other <;> decide
  rw [← filterMap_all fun other => (range.get? other).map fun value => (other.name, tree value),
    members, Json.members, bounds, List.map_filterMap, List.filter_filterMap]
  congr 1
  funext other
  cases range.get? other with
  | none => simp
  | some value => by_cases h : other = bound <;> simp [Option.filter, hname, h]

theorem boundOfMembers?_members (read : Value → Value) (range : Range) (bound : Bound) :
    boundOfMembers? (range.members fun value => (read value).toJson) bound =
      some ((range.readBack read).get? bound) := by
  rw [boundOfMembers?, filter_members, readBack, get?_mapBounds]
  cases range.get? bound with
  | none => rfl
  | some value =>
      simp only [Option.map_some, Option.toList_some, Value.ofJson?_toJson]
      rfl

theorem ofMembers?_members (read : Value → Value) (range : Range) :
    ofMembers? (range.members fun value => (read value).toJson) = some (range.readBack read) := by
  simp only [ofMembers?, boundOfMembers?_members]
  rfl

end Range

namespace Filter

/-- The values of the filter are read in the same way as in a key. -/
def ReadsWith (read : Value → Value) : Filter → Prop
  | equals value => value.ReadsAs (read value)
  | range bounds => ∀ bound value, bounds.get? bound = some value → value.ReadsAs (read value)

/-- What the filter is read as if its values are read in some way. -/
def readBack (read : Value → Value) : Filter → Filter
  | equals value => equals (read value)
  | range bounds => range (bounds.readBack read)

/-- The tree that the text of the filter is read as. -/
def tree (read : Value → Value) : Filter → Json
  | equals value => (read value).toJson
  | range bounds => .object (bounds.members fun value => (read value).toJson)

theorem readsAs_tree {read : Value → Value} {filter : Filter} (h : filter.ReadsWith read)
    (levels : Nat) : Json.ReadsAs (levels + 1) filter.canonical.toJson (filter.tree read) := by
  cases filter with
  | equals value => exact h (levels + 1)
  | range bounds =>
      change Json.ReadsAs (levels + 1) (Range.toJson _) _
      rw [Range.toJson_canonical]
      refine Json.readsAs_object fun entry hentry => ?_
      obtain ⟨bound, _, hbound⟩ := List.mem_filterMap.mp hentry
      obtain ⟨value, hvalue, rfl⟩ := Option.map_eq_some_iff.mp hbound
      exact h bound value hvalue levels

theorem ofJson?_toJson (value : Value) : ofJson? value.toJson = some (equals value) := by
  have hvalue := Value.ofJson?_toJson value
  cases value <;> exact congrArg (Option.map equals) hvalue

theorem ofJson?_tree (read : Value → Value) (filter : Filter) :
    ofJson? (filter.tree read) = some (filter.readBack read) := by
  cases filter with
  | equals value => exact ofJson?_toJson (read value)
  | range bounds =>
      change (Range.ofMembers? _).map range = _
      rw [Range.ofMembers?_members]
      rfl

end Filter

namespace Context

theorem mapM_members (read : Value → Value) (entries : List (String × Filter)) :
    ((entries.map fun entry => (entry.1, entry.2.tree read)).mapM fun (dimension, tree) => do
      let filter ← Filter.ofJson? tree
      some (dimension, filter)) =
        some (entries.map fun entry => (entry.1, entry.2.readBack read)) := by
  induction entries with
  | nil => rfl
  | cons entry entries ih =>
      rw [List.map_cons, List.mapM_cons, ih]
      simp [Filter.ofJson?_tree]

theorem ofKey?_key {read : Value → Value} {context : Context}
    (h : ∀ dimension filter, context.get? dimension = some filter → filter.ReadsWith read) :
    ofKey? context.key = some (context.map (Filter.readBack read)) := by
  have htree : Json.ReadsAs Json.maxDepth context.canonical.toJson
      (.object (context.toList.map fun entry => (entry.1, entry.2.tree read))) := by
    have hcanonical : context.canonical.toJson = .object (Json.members (·.1)
        (fun entry : String × Filter => entry.2.canonical.toJson) context.toList) := by
      rw [toJson, canonical, KeyMap.toList, KeyMap.map, List.map_map, Json.members]
      rfl
    rw [hcanonical]
    refine Json.readsAs_object fun entry hentry => ?_
    exact Filter.readsAs_tree (h entry.1 entry.2 (KeyMap.mem_toList_iff.mp hentry)) _
  have hfilters := mapM_members read context.toList
  have hlist := KeyMap.ofList_toList (context.map (Filter.readBack read))
  rw [ofKey?, key, Json.parse?_compact htree, Option.bind_eq_bind, Option.bind_some, ofJson?,
    hfilters, Option.bind_eq_bind, Option.bind_some]
  exact congrArg some hlist

end Context

/-- No floating-point numbers, and no bound that is null. -/
def Filter.Lossless : Filter → Prop
  | equals value => value.FloatFree
  | range bounds => ∀ bound value, bounds.get? bound = some value →
      value.FloatFree ∧ value.isNull = false

theorem Filter.Lossless.readsWith {filter : Filter} (h : filter.Lossless) :
    filter.ReadsWith id := by
  cases filter with
  | equals value => exact Value.readsAs_self h
  | range bounds =>
      exact fun bound value hvalue => Value.readsAs_self (h bound value hvalue).1

theorem Filter.Lossless.readBack {filter : Filter} (h : filter.Lossless) :
    filter.readBack id = filter := by
  cases filter with
  | equals value => rfl
  | range bounds =>
      refine congrArg range (Range.ext_get? fun bound => ?_)
      rw [Range.readBack, Range.get?_mapBounds]
      cases hvalue : bounds.get? bound with
      | none => rfl
      | some value => exact if_neg (Bool.eq_false_iff.mp (h bound value hvalue).2)

namespace Context

/-- The filters hold values that a key writes without loss. -/
def Lossless (context : Context) : Prop :=
  ∀ dimension filter, context.get? dimension = some filter → filter.Lossless

/-- A context survives its key: it is read back as it is, and written alike again. -/
theorem ofKey?_key_of_lossless {context : Context} (h : context.Lossless) :
    ∃ other, ofKey? context.key = some other ∧ other = context ∧ other.key = context.key := by
  refine ⟨context, ?_, rfl, rfl⟩
  have hsame : context.map (Filter.readBack id) = context := by
    refine KeyMap.ext_get? fun dimension => ?_
    rw [KeyMap.get?_map]
    cases hfilter : context.get? dimension with
    | none => rfl
    | some filter => exact congrArg some (h dimension filter hfilter).readBack
  rw [ofKey?_key fun dimension filter hfilter => (h dimension filter hfilter).readsWith, hsame]

theorem lossless_ofList {filters : List (String × Filter)}
    (h : ∀ entry ∈ filters, entry.2.Lossless) : Lossless (KeyMap.ofList filters) := by
  intro dimension filter hfilter
  rw [KeyMap.get?_ofList] at hfilter
  exact h _ (List.mem_reverse.mp (KeyMap.mem_of_lookup_eq_some hfilter))

/-- The largest and the least number, and a truth value. -/
def wideRange : Range :=
  { Range.unbounded with
    start := some (.int Int64.minValue), stop := some (.int Int64.maxValue)
    lt := some (.bool true) }

/-- Quotes and control characters in names, and a word that is a string. -/
def archived : Context :=
  KeyMap.ofList [("pri\"ce\n\x01", .range wideRange), ("", .range .unbounded),
    ("naïve\\𝄞", .equals (.string "null"))]

theorem ofKey?_key_archived : archived.Lossless ∧
    ∃ other, ofKey? archived.key = some other ∧ other = archived ∧ other.key = archived.key := by
  have hwide : Filter.Lossless (.range wideRange) := by
    intro bound value hvalue
    cases bound <;> cases hvalue <;> exact ⟨trivial, rfl⟩
  have hunbounded : Filter.Lossless (.range .unbounded) := by
    intro bound value hvalue
    cases bound <;> cases hvalue
  have hstring : Filter.Lossless (.equals (.string "null")) := trivial
  have hlossless : archived.Lossless := lossless_ofList (by simp [hwide, hunbounded, hstring])
  exact ⟨hlossless, ofKey?_key_of_lossless hlossless⟩

end Context

end MetricLayer
