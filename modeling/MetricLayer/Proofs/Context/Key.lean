import MetricLayer.Context.Transform
import MetricLayer.Proofs.Json.Spelling
import MetricLayer.Proofs.KeyMap.Lookup

/-!
# What a context key determines

A key determines the dimensions of its context and, for each, the kind of its filter and the
spelling of every value in it. Among contexts without floating-point numbers that is the context:
each of their values has a spelling of its own.
-/

namespace MetricLayer

namespace Value

def spelling (value : Value) : Json.Spelling := value.canonical.toJson.spelling

def FloatFree : Value → Prop
  | float _ => False
  | _ => True

theorem canonical_of_floatFree {value : Value} (h : value.FloatFree) : value.canonical = value := by
  cases value with
  | float x => exact h.elim
  | _ => rfl

theorem opener?_toJson (value : Value) :
    value.toJson.opener? = none ∨ ∃ text, value = string text := by
  cases value with
  | string text => exact .inr ⟨text, rfl⟩
  | _ => exact .inl rfl

/-- A value is spelled as a word or as a string. -/
theorem spelling_ne_object (value : Value) (members : List (String × Json.Spelling)) :
    value.spelling ≠ .object members := by
  intro h
  rw [spelling] at h
  rcases opener?_toJson value.canonical with hword | ⟨text, htext⟩
  · rw [Json.spelling_of_word hword] at h
    cases h
  · rw [htext] at h
    cases h

theorem int64?_toInt (n : Int64) : int64? n.toInt = some n := by
  have hlow := n.minValue_le_toInt
  have hhigh := n.toInt_lt
  have hrange : -9223372036854775808 ≤ n.toInt ∧ n.toInt ≤ 9223372036854775807 := by
    simp only [Int64.toInt_minValue] at hlow
    omega
  rw [int64?, if_pos hrange, Int64.ofInt_toInt]

theorem writeInt_ne {text : List Char} (h : Decimal.readInt? text = none) (n : Int) :
    Json.writeInt n ≠ text := by
  intro htext
  rw [← htext, Json.readInt?_writeInt] at h
  cases h

/-- The value without a fraction or exponent of that spelling. -/
def ofSpelling? : Json.Spelling → Option Value
  | .word text =>
      if text = "null".toList then some null
      else if text = "true".toList then some (bool true)
      else if text = "false".toList then some (bool false)
      else (Decimal.readInt? text >>= int64?).map int
  | .string text => some (string text)
  | _ => none

theorem ofSpelling?_spelling {value : Value} (h : value.FloatFree) :
    ofSpelling? value.spelling = some value := by
  rw [spelling, canonical_of_floatFree h]
  cases value with
  | null => rfl
  | bool value => cases value <;> rfl
  | int n =>
      change ofSpelling? (.word (Json.writeInt n.toInt)) = _
      rw [ofSpelling?, if_neg (writeInt_ne rfl _), if_neg (writeInt_ne rfl _),
        if_neg (writeInt_ne rfl _), Json.readInt?_writeInt]
      simp [int64?_toInt]
  | float x => exact h.elim
  | string text => rfl

theorem spelling_inj {first second : Value} (hfirst : first.FloatFree) (hsecond : second.FloatFree)
    (h : first.spelling = second.spelling) : first = second := by
  have hread := ofSpelling?_spelling hfirst
  rw [h, ofSpelling?_spelling hsecond] at hread
  exact (Option.some.inj hread).symm

theorem FloatFree.beq_iff_eq {first second : Value} (hfirst : first.FloatFree)
    (hsecond : second.FloatFree) : (first == second) = true ↔ first = second := by
  change first.equals second = true ↔ first = second
  cases first with
  | float x => exact hfirst.elim
  | null => cases second <;> simp [equals, equalNumbers, number?]
  | bool value =>
      cases second <;> simp [equals, equalNumbers, number?]
  | string value =>
      cases second <;> simp [equals, equalNumbers, number?]
  | int value =>
      cases second with
      | float x => exact hsecond.elim
      | _ => simp [equals, equalNumbers, number?]

end Value

namespace Range

def FloatFree (range : Range) : Prop :=
  ∀ bound value, range.get? bound = some value → value.FloatFree

theorem lookup_bounds {α : Type} (range : Range) (f : Value → α) (bound : Bound)
    (bounds : List Bound) :
    ((bounds.filterMap fun bound => (range.get? bound).map (bound, ·)).map
      fun entry => (entry.1.name, f entry.2)).lookup bound.name =
      if bound ∈ bounds then (range.get? bound).map f else none := by
  have hname : ∀ other : Bound, (bound.name == other.name) = decide (bound = other) := by
    intro other
    cases bound <;> cases other <;> decide
  induction bounds with
  | nil => rfl
  | cons head rest ih =>
      cases hget : range.get? head with
      | none =>
          rw [List.filterMap_cons_none (by rw [hget]; rfl), ih]
          by_cases hhead : bound = head
          · subst hhead
            rw [if_pos List.mem_cons_self, hget, Option.map_none, ite_self]
          · simp [hhead]
      | some value =>
          rw [List.filterMap_cons_some (by rw [hget]; rfl), List.map_cons, List.lookup_cons, hname,
            ih]
          by_cases hhead : bound = head
          · subst hhead
            simp [hget]
          · simp [hhead]

def spelling (range : Range) : Json.Spelling :=
  (range.mapBounds fun value => some value.canonical).toJson.spelling

theorem get?_mapBounds (f : Value → Option Value) (range : Range) (bound : Bound) :
    (range.mapBounds f).get? bound = range.get? bound >>= f :=
  get?_ofBounds _ bound

theorem ext_get? {first second : Range} (h : ∀ bound, first.get? bound = second.get? bound) :
    first = second := by
  have hofBounds : ∀ range : Range, ofBounds range.get? = range := fun _ => rfl
  rw [← hofBounds first, ← hofBounds second]
  congr 1
  funext bound
  exact h bound

theorem spelling_toJson (range : Range) :
    range.toJson.spelling =
      .object (range.bounds.map fun entry => (entry.1.name, entry.2.toJson.spelling)) := by
  change Json.Spelling.object (Json.memberSpellings _) = _
  rw [Json.memberSpellings_eq_map, List.map_map]
  rfl

/-- Bound by bound, ranges of one spelling have values of one spelling. -/
theorem get?_spelling_eq {first second : Range} (h : first.spelling = second.spelling)
    (bound : Bound) :
    (first.get? bound).map Value.spelling = (second.get? bound).map Value.spelling := by
  have hlookup : ∀ range : Range,
      ((range.mapBounds fun value => some value.canonical).bounds.map
        fun entry => (entry.1.name, entry.2.toJson.spelling)).lookup bound.name =
        (range.get? bound).map Value.spelling := by
    intro range
    rw [bounds, lookup_bounds _ fun value => value.toJson.spelling, if_pos (Bound.mem_all bound),
      get?_mapBounds]
    cases range.get? bound <;> rfl
  rw [spelling, spelling, spelling_toJson, spelling_toJson] at h
  rw [← hlookup first, ← hlookup second, Json.Spelling.object.inj h]

end Range

namespace Filter

def FloatFree : Filter → Prop
  | equals value => value.FloatFree
  | range bounds => bounds.FloatFree

def spelling (filter : Filter) : Json.Spelling := filter.canonical.toJson.spelling

theorem spelling_equals_ne_range (value : Value) (bounds : Range) :
    (equals value).spelling ≠ (range bounds).spelling := by
  intro h
  change value.spelling = Json.spelling (Range.toJson _) at h
  rw [Range.spelling_toJson] at h
  exact value.spelling_ne_object _ h

theorem spelling_inj {first second : Filter} (hfirst : first.FloatFree)
    (hsecond : second.FloatFree) (h : first.spelling = second.spelling) : first = second := by
  cases first with
  | equals value =>
      cases second with
      | equals other => rw [Value.spelling_inj hfirst hsecond h]
      | range bounds => exact absurd h (spelling_equals_ne_range value bounds)
  | range bounds =>
      cases second with
      | equals value => exact absurd h.symm (spelling_equals_ne_range value bounds)
      | range others =>
          congr 1
          refine Range.ext_get? fun bound => ?_
          have hbound := Range.get?_spelling_eq h bound
          cases hvalue : bounds.get? bound with
          | none =>
              rw [hvalue] at hbound
              exact (Option.map_eq_none_iff.mp hbound.symm).symm
          | some value =>
              rw [hvalue, Option.map_some] at hbound
              obtain ⟨other, hother, hspelling⟩ := Option.map_eq_some_iff.mp hbound.symm
              have heq := Value.spelling_inj (hsecond bound other hother)
                (hfirst bound value hvalue) hspelling
              rw [hother, heq]

end Filter

namespace Context

def FloatFree (context : Context) : Prop :=
  ∀ dimension filter, context.get? dimension = some filter → filter.FloatFree

theorem spelling_toJson_canonical (context : Context) :
    context.canonical.toJson.spelling = .object (context.map Filter.spelling).entries := by
  change Json.Spelling.object (Json.memberSpellings _) = _
  rw [Json.memberSpellings_eq_map, List.map_map, canonical, KeyMap.toList, KeyMap.map, List.map_map]
  rfl

/-- Dimension by dimension, contexts of one key have filters of one spelling. -/
theorem get?_spelling_of_key_eq {first second : Context} (h : first.key = second.key)
    (dimension : String) :
    (first.get? dimension).map Filter.spelling = (second.get? dimension).map Filter.spelling := by
  have hspelling := Json.spelling_eq_of_compact h
  rw [spelling_toJson_canonical, spelling_toJson_canonical] at hspelling
  rw [← KeyMap.get?_map, ← KeyMap.get?_map, KeyMap.ext (Json.Spelling.object.inj hspelling)]

theorem key_eq_of_get?_spelling {first second : Context}
    (h : ∀ dimension, (first.get? dimension).map Filter.spelling =
      (second.get? dimension).map Filter.spelling) : first.key = second.key := by
  refine Json.compact_eq_of_spelling ?_
  have hfilters : first.map Filter.spelling = second.map Filter.spelling :=
    KeyMap.ext_get? fun dimension => by rw [KeyMap.get?_map, KeyMap.get?_map, h dimension]
  rw [spelling_toJson_canonical, spelling_toJson_canonical, hfilters]

theorem key_inj {first second : Context} (hfirst : first.FloatFree) (hsecond : second.FloatFree)
    (h : first.key = second.key) : first = second := by
  refine KeyMap.ext_get? fun dimension => ?_
  have hfilter := get?_spelling_of_key_eq h dimension
  cases hfound : first.get? dimension with
  | none =>
      rw [hfound] at hfilter
      exact (Option.map_eq_none_iff.mp hfilter.symm).symm
  | some filter =>
      rw [hfound, Option.map_some] at hfilter
      obtain ⟨other, hother, hspelling⟩ := Option.map_eq_some_iff.mp hfilter.symm
      rw [hother, Filter.spelling_inj (hsecond dimension other hother)
        (hfirst dimension filter hfound) hspelling]

end Context

end MetricLayer
