import MetricLayer.Metric.Aggregate
import MetricLayer.Pivot
import MetricLayer.Proofs.Rows.Grouping
import MetricLayer.Proofs.Value.Alike
import Mathlib.Data.Set.Card

/-!
# Counting values and grouping by them

A distinct count and a pivot both tell the cells of a column apart by JSON texts. The count takes
the text of a value as it is, so it counts the values that occur. The pivot takes the text of the
canonical form, so it has one group for each canonical form that occurs. The two agree just when no
number occurs in two forms, such as a whole number and its double.
-/

namespace MetricLayer

namespace Value

variable {first second value : Value}

theorem Finite.canonical (h : value.Finite) : value.canonical.Finite := by
  cases value with
  | float x =>
      rw [Value.canonical]
      split
      · trivial
      · exact h
  | _ => trivial

theorem canonical_eq_null_iff : value.canonical = null ↔ value = null := by
  cases value with
  | float x =>
      rw [canonical]
      split <;> simp
  | _ => exact Iff.rfl

/-- The text of a finite double is that of no other kind of value. -/
theorem jsonText_float_ne {x : Float} (hfinite : Decimal.isFinite x = true)
    (hvalue : value.FloatFree) : (float x).jsonText ≠ value.jsonText := by
  intro h
  have hspelling : (float x).toJson.spelling = value.canonical.toJson.spelling := by
    rw [canonical_of_floatFree hvalue]
    exact Json.spelling_eq_of_compact h
  have hread := ofSpelling?_spelling hvalue
  rw [spelling, ← hspelling] at hread
  rw [show (float x).toJson.spelling = .word (Json.writeFloat x) from rfl,
    ofSpelling?_writeFloat hfinite] at hread
  cases hread

/-- Finite values have texts of their own. -/
theorem jsonText_inj (hfirst : first.Finite) (hsecond : second.Finite)
    (h : first.jsonText = second.jsonText) : first = second := by
  by_cases hfree : first.FloatFree
  · by_cases hfree' : second.FloatFree
    · refine spelling_inj hfree hfree' ?_
      rw [spelling, spelling, canonical_of_floatFree hfree, canonical_of_floatFree hfree']
      exact Json.spelling_eq_of_compact h
    · obtain ⟨y, rfl⟩ := exists_float hfree'
      exact absurd h.symm (jsonText_float_ne hsecond hfree)
  · obtain ⟨x, rfl⟩ := exists_float hfree
    by_cases hfree' : second.FloatFree
    · exact absurd h (jsonText_float_ne hfirst hfree')
    · obtain ⟨y, rfl⟩ := exists_float hfree'
      rw [Finite, Decimal.isFinite] at hfirst hsecond
      obtain ⟨form, hform⟩ := Option.isSome_iff_exists.mp hfirst
      obtain ⟨other, hother⟩ := Option.isSome_iff_exists.mp hsecond
      rw [Decimal.writeFloat_inj hform hother (String.ofList_injective h)]

end Value

theorem length_eq_ncard {α : Type} {items : List α} (h : items.Nodup) :
    items.length = {item | item ∈ items}.ncard := by
  classical
  rw [← List.coe_toFinset, Set.ncard_coe_finset, List.toFinset_card_of_nodup h]

/-- The values other than null that occur in a column. -/
def RowSet.valuesIn (set : RowSet) (column : String) : Set Value :=
  {value | value ≠ .null ∧ ∃ row ∈ set.rows, row.cell column = value}

variable {set : RowSet} {column : String}

namespace RowSet

theorem finite_of_mem_valuesIn (hfinite : ∀ row ∈ set.rows, (row.cell column).Finite)
    {value : Value} (h : value ∈ set.valuesIn column) : value.Finite := by
  obtain ⟨_, row, hrow, rfl⟩ := h
  exact hfinite row hrow

theorem finite_valuesIn (set : RowSet) (column : String) : (set.valuesIn column).Finite := by
  refine (List.finite_toSet (set.rows.map fun row => row.cell column)).subset ?_
  rintro value ⟨_, row, hrow, rfl⟩
  exact List.mem_map.mpr ⟨row, hrow, rfl⟩

end RowSet

theorem mem_distinctTexts_iff {text : String} :
    text ∈ Aggregate.distinctTexts set column ↔ text ∈ Value.jsonText '' set.valuesIn column := by
  rw [Aggregate.distinctTexts, KeyMap.mem_sortNames_iff, List.mem_filterMap]
  constructor
  · rintro ⟨value, hvalue, htext⟩
    obtain ⟨row, hrow, rfl⟩ := List.mem_map.mp hvalue
    split at htext
    · cases htext
    · rename_i hnull
      exact ⟨_, ⟨fun hcell => hnull (Value.isNull_iff.mpr hcell), row, hrow, rfl⟩,
        Option.some.inj htext⟩
  · rintro ⟨value, ⟨hnull, row, hrow, rfl⟩, rfl⟩
    refine ⟨row.cell column, List.mem_map_of_mem hrow, ?_⟩
    rw [if_neg fun hcell => hnull (Value.isNull_iff.mp hcell)]

/-- There are as many texts as values. -/
theorem length_distinctTexts (hfinite : ∀ row ∈ set.rows, (row.cell column).Finite) :
    (Aggregate.distinctTexts set column).length = (set.valuesIn column).ncard := by
  have hnodup : (Aggregate.distinctTexts set column).Nodup := KeyMap.keys_nodup _
  have htexts : {text | text ∈ Aggregate.distinctTexts set column} =
      Value.jsonText '' set.valuesIn column := Set.ext fun text => mem_distinctTexts_iff
  rw [length_eq_ncard hnodup, htexts]
  refine Set.InjOn.ncard_image fun first hfirst second hsecond htext => ?_
  exact Value.jsonText_inj (RowSet.finite_of_mem_valuesIn hfinite hfirst)
    (RowSet.finite_of_mem_valuesIn hfinite hsecond) htext

/-- The key of a group whose only dimension has that canonical value. -/
def keyText (value : Value) : String := (Json.array [value.toJson]).compact

theorem keyText_inj {first second : Value} (hfirst : first.Finite) (hsecond : second.Finite)
    (h : keyText first = keyText second) : first = second := by
  have hchars := String.ofList_injective h
  simp only [Json.chars, Json.itemChars, List.cons_append] at hchars
  refine Value.jsonText_inj hfirst hsecond ?_
  exact congrArg String.ofList (List.append_cancel_right (List.cons.inj hchars).2)

theorem keyText_eq_null_iff {value : Value} (h : value.Finite) :
    keyText value.canonical = "[null]" ↔ value = .null := by
  have hnull : keyText .null = "[null]" := by decide +kernel
  constructor
  · intro hkey
    have hfinite : Value.Finite .null := trivial
    exact Value.canonical_eq_null_iff.mp (keyText_inj h.canonical hfinite (hkey.trans hnull.symm))
  · rintro rfl
    exact hnull

/-- The groups of a pivot by one column, less the group of the rows without a value. -/
def valueGroups (set : RowSet) (column : String) : List (String × List Row) :=
  (set.groupBy (groupKey [column])).filter fun group => group.1 ≠ "[null]"

theorem map_fst_valueGroups (set : RowSet) (column : String) :
    (valueGroups set column).map Prod.fst =
      (set.rows.map (groupKey [column])).eraseDups.filter fun key => key ≠ "[null]" := by
  rw [valueGroups, RowSet.groupBy, groupBy_eq, List.filter_map, List.map_map]
  exact List.map_id _

section Grouping

variable (hfinite : ∀ row ∈ set.rows, (row.cell column).Finite)

include hfinite

theorem mem_map_fst_valueGroups_iff {key : String} :
    key ∈ (valueGroups set column).map Prod.fst ↔
      key ∈ keyText '' (Value.canonical '' set.valuesIn column) := by
  rw [map_fst_valueGroups, List.mem_filter, List.mem_eraseDups, List.mem_map, decide_eq_true_iff,
    Set.image_image]
  constructor
  · rintro ⟨⟨row, hrow, rfl⟩, hkey⟩
    have hnull := mt (keyText_eq_null_iff (hfinite row hrow)).mpr hkey
    exact ⟨row.cell column, ⟨hnull, row, hrow, rfl⟩, rfl⟩
  · rintro ⟨value, ⟨hnull, row, hrow, rfl⟩, rfl⟩
    exact ⟨⟨row, hrow, rfl⟩, mt (keyText_eq_null_iff (hfinite row hrow)).mp hnull⟩

/-- There are as many groups as canonical forms. -/
theorem length_valueGroups :
    (valueGroups set column).length = (Value.canonical '' set.valuesIn column).ncard := by
  have hnodup : ((valueGroups set column).map Prod.fst).Nodup := by
    rw [map_fst_valueGroups]
    exact (nodup_eraseDups _).filter _
  have hkeys : {key | key ∈ (valueGroups set column).map Prod.fst} =
      keyText '' (Value.canonical '' set.valuesIn column) :=
    Set.ext fun key => mem_map_fst_valueGroups_iff hfinite
  rw [← List.length_map Prod.fst, length_eq_ncard hnodup, hkeys]
  refine Set.InjOn.ncard_image ?_
  rintro _ ⟨first, hfirst, rfl⟩ _ ⟨second, hsecond, rfl⟩ hkey
  exact keyText_inj (RowSet.finite_of_mem_valuesIn hfinite hfirst).canonical
    (RowSet.finite_of_mem_valuesIn hfinite hsecond).canonical hkey

end Grouping

/-- **Values are counted, canonical forms are grouped.** A distinct count gives the number of values
other than null that occur in a column. A pivot by the column has as many groups for them as they
have canonical forms, so it never has more, and it has as many just when no two values that occur
have one canonical form. -/
theorem distinctCount_valueGroups {set : RowSet} {column : String}
    (hfinite : ∀ row ∈ set.rows, (row.cell column).Finite) :
    (Aggregate.distinctCount column).apply set =
        some (Float.ofNat (set.valuesIn column).ncard) ∧
      (valueGroups set column).length = (Value.canonical '' set.valuesIn column).ncard ∧
      (valueGroups set column).length ≤ (set.valuesIn column).ncard ∧
      ((valueGroups set column).length = (set.valuesIn column).ncard ↔
        ∀ first ∈ set.valuesIn column, ∀ second ∈ set.valuesIn column,
          first.canonical = second.canonical → first = second) := by
  have hvalues := RowSet.finite_valuesIn set column
  refine ⟨?_, length_valueGroups hfinite, ?_, ?_⟩
  · rw [Aggregate.apply, length_distinctTexts hfinite]
  · rw [length_valueGroups hfinite]
    exact Set.ncard_image_le hvalues
  · rw [length_valueGroups hfinite, Set.ncard_image_iff hvalues]
    constructor
    · intro hinj first hfirst second hsecond hcanonical
      exact hinj hfirst hsecond hcanonical
    · intro hinj first hfirst second hsecond hcanonical
      exact hinj first hfirst second hsecond hcanonical

def mixedRows : RowSet := .ofRows [
  KeyMap.ofList [("year", .int 2024)],
  KeyMap.ofList [("year", .string "2024")],
  KeyMap.ofList [("year", .float 2024.0)],
  KeyMap.ofList []]

theorem finite_mixedRows : ∀ row ∈ mixedRows.rows, (row.cell "year").Finite := by
  intro row hrow
  rw [mixedRows, RowSet.rows_ofRows] at hrow
  simp only [List.mem_cons, List.not_mem_nil, or_false] at hrow
  rcases hrow with rfl | rfl | rfl | rfl
  · trivial
  · trivial
  · have hfinite : Decimal.isFinite 2024.0 = true := by decide +kernel
    exact hfinite
  · trivial

/-- The whole number and its double are equal, share a group and are counted twice. -/
theorem distinctCount_valueGroups_mixedRows :
    (Value.int 2024 == Value.float 2024.0) = true ∧
      (Aggregate.distinctCount "year").apply mixedRows = some 3.0 ∧
      (valueGroups mixedRows "year").length = 2 ∧
      ¬ (valueGroups mixedRows "year").length = (mixedRows.valuesIn "year").ncard := by
  obtain ⟨_, _, _, hagree⟩ := distinctCount_valueGroups finite_mixedRows
  refine ⟨by decide +kernel, by decide +kernel, by decide +kernel, fun hsame => ?_⟩
  have hint : Value.int 2024 ∈ mixedRows.valuesIn "year" :=
    ⟨nofun, KeyMap.ofList [("year", .int 2024)], by simp [mixedRows, RowSet.rows_ofRows], rfl⟩
  have hfloat : Value.float 2024.0 ∈ mixedRows.valuesIn "year" :=
    ⟨nofun, KeyMap.ofList [("year", .float 2024.0)], by simp [mixedRows, RowSet.rows_ofRows], rfl⟩
  have hcanonical : (Value.int 2024).canonical = (Value.float 2024.0).canonical := by
    have hwhole : Value.wholeFloat? 2024.0 = some 2024 := by decide +kernel
    simp only [Value.canonical, hwhole]
  cases hagree.mp hsame _ hint _ hfloat hcanonical

end MetricLayer
