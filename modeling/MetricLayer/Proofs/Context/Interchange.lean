import MetricLayer.Proofs.Rows.Narrowing
import MetricLayer.Proofs.Value.Alike

/-!
# Contexts of one key

Contexts of one key keep the same rows if the values in their filters are alike. They need not be:
null and a double that is not finite have one spelling, and so have a large whole number and its
double, which equals the neighbors of that number too. So a key tells exactly those contexts apart
that no row set needs to tell apart if and only if filters of one spelling hold the same cells.
-/

namespace MetricLayer

def Range.Alike (first second : Range) : Prop :=
  ∀ bound value other, first.get? bound = some value → second.get? bound = some other →
    value.AlikeBound other

namespace Filter

/-- The cell is kept by the filter: one that asks for null asks for nothing. -/
def keeps (filter : Filter) (cell : Value) : Bool := filter.isNull || filter.holds cell

/-- The values of the filters are alike, provided that these have one spelling. -/
def Alike : Filter → Filter → Prop
  | equals value, equals other => value.Alike other
  | range bounds, range others => bounds.Alike others
  | _, _ => False

/-- The values that are asked for are alike, and ranges hold the same numbers. -/
def Interchangeable : Filter → Filter → Prop
  | equals value, equals other => value.Alike other
  | range bounds, range others =>
      ∀ number : Value, number.number?.isSome = true → bounds.holds number = others.holds number
  | _, _ => False

end Filter

namespace Range

variable {first second : Range}

theorem holds_iff (range : Range) (cell : Value) :
    range.holds cell = true ↔
      ∀ bound value, range.get? bound = some value →
        (cell.compare? value).any bound.accepts = true := by
  rw [holds, bounds, List.all_eq_true]
  constructor
  · intro h bound value hvalue
    refine h (bound, value) (List.mem_filterMap.mpr ⟨bound, Bound.mem_all bound, ?_⟩)
    rw [hvalue, Option.map_some]
  · intro h entry hentry
    obtain ⟨bound, _, hbound⟩ := List.mem_filterMap.mp hentry
    obtain ⟨value, hvalue, rfl⟩ := Option.map_eq_some_iff.mp hbound
    exact h bound value hvalue

theorem spelling_eq_of_get? (h : first.spelling = second.spelling) {bound : Bound}
    {value other : Value} (hvalue : first.get? bound = some value)
    (hother : second.get? bound = some other) : value.spelling = other.spelling := by
  have hbound := get?_spelling_eq h bound
  rw [hvalue, hother] at hbound
  exact Option.some.inj hbound

theorem isSome_get?_of_spelling (h : first.spelling = second.spelling) (bound : Bound) :
    (first.get? bound).isSome = (second.get? bound).isSome := by
  have hbound := congrArg Option.isSome (get?_spelling_eq h bound)
  rwa [Option.isSome_map, Option.isSome_map] at hbound

/-- A cell that is in the same order with all bounds is in both ranges or in neither. -/
theorem holds_eq_of_compare?
    (h : ∀ bound, (first.get? bound).isSome = (second.get? bound).isSome) {cell : Value}
    (hcompare : ∀ bound value other, first.get? bound = some value →
      second.get? bound = some other → cell.compare? value = cell.compare? other) :
    first.holds cell = second.holds cell := by
  rw [Bool.eq_iff_iff, holds_iff, holds_iff]
  constructor
  · intro hholds bound other hother
    obtain ⟨value, hvalue⟩ := Option.isSome_iff_exists.mp ((h bound).trans (hother ▸ rfl))
    rw [← hcompare bound value other hvalue hother]
    exact hholds bound value hvalue
  · intro hholds bound value hvalue
    obtain ⟨other, hother⟩ := Option.isSome_iff_exists.mp ((h bound).symm.trans (hvalue ▸ rfl))
    rw [hcompare bound value other hvalue hother]
    exact hholds bound other hother

theorem Alike.holds_eq (halike : first.Alike second) (h : first.spelling = second.spelling)
    (cell : Value) : first.holds cell = second.holds cell := by
  refine holds_eq_of_compare? (isSome_get?_of_spelling h) fun bound value other hvalue hother => ?_
  exact Value.compare?_eq_of_spelling (spelling_eq_of_get? h hvalue hother)
    (halike bound value other hvalue hother) cell

end Range

namespace Filter

variable {first second : Filter}

theorem keeps_range (bounds : Range) (cell : Value) :
    (range bounds).keeps cell = bounds.holds cell := rfl

/-- Filters of one spelling keep the same cells just when they are interchangeable. -/
theorem keeps_eq_iff (h : first.spelling = second.spelling) :
    (∀ cell, first.keeps cell = second.keeps cell) ↔ first.Interchangeable second := by
  cases first with
  | equals value =>
      cases second with
      | equals other => exact Value.keeps_eq_iff_of_spelling h
      | range others => exact absurd h (spelling_equals_ne_range value others)
  | range bounds =>
      cases second with
      | equals other => exact absurd h.symm (spelling_equals_ne_range other bounds)
      | range others =>
          constructor
          · exact fun hkeeps number _ => hkeeps number
          · intro hnumbers cell
            rw [keeps_range, keeps_range]
            cases hcell : cell.number? with
            | some number => exact hnumbers cell (hcell ▸ rfl)
            | none =>
                refine Range.holds_eq_of_compare? (Range.isSome_get?_of_spelling h)
                  fun bound value other hvalue hother => ?_
                exact Value.compare?_eq_of_spelling_of_no_number
                  (Range.spelling_eq_of_get? h hvalue hother) hcell

theorem Alike.interchangeable (halike : first.Alike second)
    (h : first.spelling = second.spelling) : first.Interchangeable second := by
  cases first with
  | equals value =>
      cases second with
      | equals other => exact halike
      | range others => exact halike.elim
  | range bounds =>
      cases second with
      | equals other => exact halike.elim
      | range others => exact fun number _ => Range.Alike.holds_eq halike h number

end Filter

namespace Context

variable {first second : Context}

theorem admits_iff (context : Context) (grain : List String) (row : Row) :
    context.Admits grain row ↔
      ∀ dimension filter, context.get? dimension = some filter → dimension ∈ grain →
        filter.keeps (row.cell dimension) = true := by
  constructor
  · intro h dimension filter hfilter hgrain
    rw [Filter.keeps, Bool.or_eq_true]
    cases hnull : filter.isNull with
    | true => exact .inl rfl
    | false => exact .inr (h dimension filter hfilter hnull hgrain)
  · intro h dimension filter hfilter hnull hgrain
    have hkeeps := h dimension filter hfilter hgrain
    rw [Filter.keeps, hnull, Bool.false_or] at hkeeps
    exact hkeeps

theorem isSome_get?_of_key_eq (h : first.key = second.key) (dimension : String) :
    (first.get? dimension).isSome = (second.get? dimension).isSome := by
  have hfilter := congrArg Option.isSome (get?_spelling_of_key_eq h dimension)
  rwa [Option.isSome_map, Option.isSome_map] at hfilter

/-- The rows are narrowed to the same ones under both contexts. -/
def SameRows (first second : Context) : Prop :=
  ∀ (rows : List Row) (grain : List String),
    ((RowSet.ofRows rows).narrowToGrain first grain).rows =
      ((RowSet.ofRows rows).narrowToGrain second grain).rows

theorem admits_of_keeps
    (h : ∀ dimension, (first.get? dimension).isSome = (second.get? dimension).isSome)
    (hkeeps : ∀ dimension filter other, first.get? dimension = some filter →
      second.get? dimension = some other → ∀ cell, filter.keeps cell = other.keeps cell)
    {grain : List String} {row : Row} (hadmits : first.Admits grain row) :
    second.Admits grain row := by
  rw [admits_iff] at *
  intro dimension other hother hgrain
  obtain ⟨filter, hfilter⟩ := Option.isSome_iff_exists.mp ((h dimension).trans (hother ▸ rfl))
  rw [← hkeeps dimension filter other hfilter hother]
  exact hadmits dimension filter hfilter hgrain

/-- Whether a row with one cell is admitted is up to the filter on its dimension. -/
theorem admits_singleton_iff {context : Context} {dimension : String} {filter : Filter}
    (h : context.get? dimension = some filter) (cell : Value) :
    context.Admits [dimension] (KeyMap.empty.insert dimension cell) ↔
      filter.keeps cell = true := by
  have hcell : Row.cell (KeyMap.empty.insert dimension cell) dimension = cell := by
    rw [Row.cell, KeyMap.get?_insert, if_pos rfl]
    rfl
  rw [admits_iff]
  constructor
  · intro hadmits
    have hkeeps := hadmits dimension filter h List.mem_cons_self
    rw [hcell] at hkeeps
    exact hkeeps
  · intro hkeeps other otherFilter hother hgrain
    obtain rfl := List.mem_singleton.mp hgrain
    rw [h] at hother
    rw [hcell, ← Option.some.inj hother]
    exact hkeeps

/-- Contexts with filters on the same dimensions. -/
theorem sameRows_iff_keeps_of_isSome
    (h : ∀ dimension, (first.get? dimension).isSome = (second.get? dimension).isSome) :
    first.SameRows second ↔
      ∀ dimension filter other, first.get? dimension = some filter →
        second.get? dimension = some other → ∀ cell, filter.keeps cell = other.keeps cell := by
  constructor
  · intro hsame dimension filter other hfilter hother cell
    have hmem : ∀ {context : Context} {filter : Filter}, context.get? dimension = some filter →
        (KeyMap.empty.insert dimension cell ∈
          ((RowSet.ofRows [KeyMap.empty.insert dimension cell]).narrowToGrain context
            [dimension]).rows ↔ filter.keeps cell = true) := by
      intro context filter hfilter
      rw [RowSet.mem_rows_narrowToGrain_iff, RowSet.rows_ofRows, admits_singleton_iff hfilter]
      exact and_iff_right List.mem_cons_self
    rw [Bool.eq_iff_iff, ← hmem hfilter, ← hmem hother, hsame]
  · intro hkeeps rows grain
    rw [RowSet.rows_narrowToGrain, RowSet.rows_narrowToGrain]
    congr 1
    funext row
    rw [decide_eq_decide]
    constructor
    · exact admits_of_keeps h hkeeps
    · exact admits_of_keeps (fun dimension => (h dimension).symm)
        fun dimension other filter hother hfilter cell =>
          (hkeeps dimension filter other hfilter hother cell).symm

theorem sameRows_iff_keeps (h : first.key = second.key) :
    first.SameRows second ↔
      ∀ dimension filter other, first.get? dimension = some filter →
        second.get? dimension = some other → ∀ cell, filter.keeps cell = other.keeps cell :=
  sameRows_iff_keeps_of_isSome (isSome_get?_of_key_eq h)

/-- Contexts of one key keep the same rows, whatever the rows and the grain, if their values are
alike, and they keep the same rows just when the filters on each dimension are interchangeable. -/
theorem sameRows_iff_of_key_eq (h : first.key = second.key) :
    ((∀ dimension filter other, first.get? dimension = some filter →
        second.get? dimension = some other → filter.Alike other) → first.SameRows second) ∧
      (first.SameRows second ↔
        ∀ dimension filter other, first.get? dimension = some filter →
          second.get? dimension = some other → filter.Interchangeable other) := by
  have hspelling : ∀ {dimension filter other}, first.get? dimension = some filter →
      second.get? dimension = some other → filter.spelling = other.spelling := by
    intro dimension filter other hfilter hother
    have hspelling := get?_spelling_of_key_eq h dimension
    rw [hfilter, hother] at hspelling
    exact Option.some.inj hspelling
  have hiff : first.SameRows second ↔
      ∀ dimension filter other, first.get? dimension = some filter →
        second.get? dimension = some other → filter.Interchangeable other := by
    rw [sameRows_iff_keeps h]
    constructor
    · intro hkeeps dimension filter other hfilter hother
      exact (Filter.keeps_eq_iff (hspelling hfilter hother)).mp
        (hkeeps dimension filter other hfilter hother)
    · intro hfilters dimension filter other hfilter hother
      exact (Filter.keeps_eq_iff (hspelling hfilter hother)).mpr
        (hfilters dimension filter other hfilter hother)
  refine ⟨fun halike => hiff.mpr ?_, hiff⟩
  intro dimension filter other hfilter hother
  exact (halike dimension filter other hfilter hother).interchangeable (hspelling hfilter hother)

def wideWhole : Context := KeyMap.empty.insert "k" (.equals (.int 9007199254740992))

def wideDouble : Context := KeyMap.empty.insert "k" (.equals (.float 9007199254740992.0))

/-- The double equals the next whole number as well. -/
theorem sameRows_iff_of_key_eq_wide :
    wideWhole.key = wideDouble.key ∧ ¬ wideWhole.SameRows wideDouble := by
  have hkey : wideWhole.key = wideDouble.key := by decide +kernel
  refine ⟨hkey, fun hsame => ?_⟩
  have hfilters := (sameRows_iff_of_key_eq hkey).2.mp hsame "k" _ _ rfl rfl
  have hshared : ¬ Decimal.Binary.OwnDouble (9007199254740992 : Int64).toInt.natAbs := by decide
  exact hshared hfilters

end Context

end MetricLayer
