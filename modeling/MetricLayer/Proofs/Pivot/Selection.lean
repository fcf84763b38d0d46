import MetricLayer.Proofs.Pivot.Cells
import MetricLayer.Proofs.Pivot.Groups

/-!
# What the context of a group selects

The context of a group asks for the values of the group and, on all other dimensions, for what the
query asks for. Values overwrite the filters of the query without a loss, as the first row of the
group has passed them.
-/

namespace MetricLayer

namespace Engine

variable {engine : Engine} {query : PivotQuery} {table : List Row}

theorem get?_groupContext_groupDimensions (first : Row) (dimension : String) :
    (groupContext query (groupDimensions query first)).get? dimension =
      if dimension ∈ query.rows ∧ (first.cell dimension).isNull = false then
        some (.equals (first.cell dimension))
      else query.filters.get? dimension := by
  let row : PivotRow := ⟨groupDimensions query first, [], []⟩
  rw [get?_groupContext row rfl, PivotRow.filter?, PivotRow.dimension?, lookup_groupDimensions]
  by_cases hmem : dimension ∈ query.rows
  · cases hnull : (first.cell dimension).isNull <;> simp [hmem, hnull]
  · simp [hmem]

/-- A context of a group whose first row has passed the filters of the query admits the rows that
pass them and agree with the group on its values. -/
theorem admits_groupContext_iff {grain : List String} {first row : Row}
    (hfirst : ∀ dimension ∈ query.rows, (first.cell dimension).FloatFree)
    (hrow : ∀ dimension ∈ query.rows, (row.cell dimension).FloatFree)
    (hpassed : query.filters.Admits grain first) :
    (groupContext query (groupDimensions query first)).Admits grain row ↔
      query.filters.Admits grain row ∧ ∀ dimension ∈ query.rows,
        (first.cell dimension).isNull = false → dimension ∈ grain →
          row.cell dimension = first.cell dimension := by
  have hholds : ∀ dimension ∈ query.rows, (Filter.equals (first.cell dimension)).holds
      (row.cell dimension) = true ↔ row.cell dimension = first.cell dimension := by
    intro dimension hdimension
    exact (hrow dimension hdimension).beq_iff_eq (hfirst dimension hdimension)
  constructor
  · intro hadmits
    have hvalues : ∀ dimension ∈ query.rows, (first.cell dimension).isNull = false →
        dimension ∈ grain → row.cell dimension = first.cell dimension := by
      intro dimension hdimension hnull hgrain
      refine (hholds dimension hdimension).mp (hadmits dimension _ ?_ hnull hgrain)
      rw [get?_groupContext_groupDimensions, if_pos ⟨hdimension, hnull⟩]
    refine ⟨fun dimension filter hfilter hnull hgrain => ?_, hvalues⟩
    by_cases hasked : dimension ∈ query.rows ∧ (first.cell dimension).isNull = false
    · rw [hvalues dimension hasked.1 hasked.2 hgrain]
      exact hpassed dimension filter hfilter hnull hgrain
    · refine hadmits dimension filter ?_ hnull hgrain
      rw [get?_groupContext_groupDimensions, if_neg hasked, hfilter]
  · rintro ⟨hbase, hvalues⟩ dimension filter hfilter hnull hgrain
    rw [get?_groupContext_groupDimensions] at hfilter
    split at hfilter
    · rename_i hasked
      obtain rfl := Option.some.inj hfilter
      exact (hholds dimension hasked.1).mpr (hvalues dimension hasked.1 hasked.2 hgrain)
    · exact hbase dimension filter hfilter hnull hgrain

/-- The rows of the table that a metric of that grain aggregates under the context of a group. -/
def aggregatedRows (query : PivotQuery) (table : List Row) (grain : List String)
    (answer : PivotRow) : List Row :=
  ((RowSet.ofRows table).narrowToGrain (groupContext query answer.dimensions) grain).rows

def HasValues (dimensions : List (String × Value)) : Prop :=
  ∀ dimension ∈ dimensions, dimension.2.isNull = false

theorem hasValues_groupDimensions_iff {row : Row} :
    HasValues (groupDimensions query row) ↔
      ∀ dimension ∈ query.rows, (row.cell dimension).isNull = false := by
  rw [HasValues, groupDimensions, List.forall_mem_map]

def Covers (table : List Row) (grain : List String) : Prop :=
  ∀ dimension ∈ (RowSet.ofRows table).columns, dimension ∈ grain

/-- No filter of the query stands on a dimension of the grain that it does not filter the table
by. -/
def FreeBeyond (engine : Engine) (query : PivotQuery) (table : List Row) (grain : List String) :
    Prop :=
  ∀ dimension filter, query.filters.get? dimension = some filter → filter.isNull = false →
    dimension ∈ grain → dimension ∈ engine.filterGrain query (.ofRows table)

theorem covers_filterGrain : Covers table (engine.filterGrain query (.ofRows table)) := by
  intro dimension hcolumn
  rw [filterGrain, KeyMap.mem_sortNames_iff]
  exact List.mem_append_left _ hcolumn

theorem freeBeyond_filterGrain :
    engine.FreeBeyond query table (engine.filterGrain query (.ofRows table)) :=
  fun _ _ _ _ hgrain => hgrain

theorem mem_columns_of_cell {row : Row} (hrow : row ∈ table) {dimension : String}
    (hvalue : (row.cell dimension).isNull = false) :
    dimension ∈ (RowSet.ofRows table).columns := by
  rw [RowSet.columns, KeyMap.mem_sortNames_iff, RowSet.rows_ofRows, List.mem_flatMap]
  refine ⟨row, hrow, ?_⟩
  cases hcell : row.get? dimension with
  | none =>
      rw [Row.cell, hcell] at hvalue
      cases hvalue
  | some value => exact KeyMap.mem_keys_iff.mpr ⟨value, hcell⟩

theorem cell_eq_null_of_not_mem_columns {row : Row} (hrow : row ∈ table) {dimension : String}
    (hcolumn : dimension ∉ (RowSet.ofRows table).columns) : row.cell dimension = .null := by
  cases hcell : row.cell dimension with
  | null => rfl
  | _ => exact absurd (mem_columns_of_cell hrow (by rw [hcell]; rfl)) hcolumn

/-- Dimensions that are no columns of the table are null in all rows. So a filter on one of them
holds of every row if it holds of some. -/
theorem admits_iff_of_covers {grain : List String} (hcovers : Covers table grain)
    (hfree : engine.FreeBeyond query table grain) {first row : Row}
    (hfirst : first ∈ engine.baseRows query table) (hrow : row ∈ table) :
    query.filters.Admits grain row ↔
      query.filters.Admits (engine.filterGrain query (.ofRows table)) row := by
  obtain ⟨hmem, hpassed⟩ := mem_baseRows_iff.mp hfirst
  constructor
  · intro h dimension filter hfilter hnull hgrain
    by_cases hcolumn : dimension ∈ (RowSet.ofRows table).columns
    · exact h dimension filter hfilter hnull (hcovers dimension hcolumn)
    · rw [cell_eq_null_of_not_mem_columns hrow hcolumn,
        ← cell_eq_null_of_not_mem_columns hmem hcolumn]
      exact hpassed dimension filter hfilter hnull hgrain
  · intro h dimension filter hfilter hnull hgrain
    exact h dimension filter hfilter hnull (hfree dimension filter hfilter hnull hgrain)

section FloatFree

variable (hcells : ∀ row ∈ table, ∀ dimension ∈ query.rows, (row.cell dimension).FloatFree)
  {grain : List String} (hcovers : Covers table grain) (hfree : engine.FreeBeyond query table grain)

include hcells hcovers hfree

/-- Under the context of a group, the base rows that agree with it on the values that it has. -/
theorem rows_narrowToGrain_groupContext {first : Row}
    (hfirst : first ∈ engine.baseRows query table) :
    ((RowSet.ofRows table).narrowToGrain (groupContext query (groupDimensions query first))
        grain).rows =
      open scoped Classical in (engine.baseRows query table).filter fun row =>
        ∀ dimension ∈ query.rows, (first.cell dimension).isNull = false →
          row.cell dimension = first.cell dimension := by
  classical
  obtain ⟨hmem, hpassed⟩ := mem_baseRows_iff.mp hfirst
  have hpassed := (admits_iff_of_covers hcovers hfree hfirst hmem).mpr hpassed
  rw [baseRows, RowSet.rows_narrowToGrain, RowSet.rows_narrowToGrain, RowSet.rows_ofRows,
    List.filter_filter]
  refine List.filter_congr fun row hrow => ?_
  rw [← Bool.decide_and, decide_eq_decide,
    admits_groupContext_iff (hcells first hmem) (hcells row hrow) hpassed,
    admits_iff_of_covers hcovers hfree hfirst hrow, and_comm]
  refine and_congr_left fun _ => forall₃_congr fun dimension _ hvalue => ?_
  exact forall_prop_of_true (hcovers dimension (mem_columns_of_cell hmem hvalue))

/-- If the group has a value in every dimension, these are its own rows. -/
theorem aggregatedRows_of_hasValues {first : Row} (hfirst : first ∈ engine.baseRows query table)
    {answer : PivotRow} (hdimensions : answer.dimensions = groupDimensions query first)
    (hvalues : HasValues answer.dimensions) :
    aggregatedRows query table grain answer =
      engine.rowsWith query table answer.dimensions := by
  rw [hdimensions, hasValues_groupDimensions_iff] at hvalues
  rw [aggregatedRows, hdimensions, rows_narrowToGrain_groupContext hcells hcovers hfree hfirst,
    rowsWith]
  refine List.filter_congr fun row _ => ?_
  rw [decide_eq_decide, groupDimensions_eq_iff]
  exact forall₂_congr fun dimension hdimension =>
    forall_prop_of_true (hvalues dimension hdimension)

variable (htable : engine.database.get? query.factTable = some table) {rows : List PivotRow}
  (hrows : engine.runQuery query = .ok rows)

include htable hrows

theorem aggregatedRows_of_runQuery_ok {answer : PivotRow} (hanswer : answer ∈ rows)
    (hvalues : HasValues answer.dimensions) :
    aggregatedRows query table grain answer =
      engine.rowsWith query table answer.dimensions := by
  obtain ⟨first, hfirst, hdimensions⟩ := exists_row_of_runQuery_ok htable hrows hanswer
  exact aggregatedRows_of_hasValues hcells hcovers hfree hfirst hdimensions hvalues

theorem forall₂_aggregatedRows :
    List.Forall₂ (fun group answer => HasValues answer.dimensions →
        aggregatedRows query table grain answer = group.2)
      (engine.groups query (.ofRows table)) rows := by
  have hgroups : List.Forall₂ (fun answer group =>
      engine.rowsWith query table answer.dimensions = group.2) rows
      (engine.groups query (.ofRows table)) := by
    rw [← List.forall₂_map_right_iff, ← List.forall₂_map_left_iff,
      ← map_snd_groups_of_runQuery_ok htable hrows hcells, List.forall₂_eq_eq_eq]
  have hanswers : ∀ answer ∈ rows, HasValues answer.dimensions →
      aggregatedRows query table grain answer =
        engine.rowsWith query table answer.dimensions :=
    fun _ => aggregatedRows_of_runQuery_ok hcells hcovers hfree htable hrows
  refine (((List.forall₂_and_left _ _).mpr ⟨hanswers, hgroups⟩).imp ?_).flip
  rintro answer group ⟨hanswer, hgroup⟩ hvalues
  exact (hanswer hvalues).trans hgroup

/-- A base row with a value in every dimension is aggregated for one answer of this kind. -/
theorem existsUnique_aggregatedRows {row : Row} (hrow : row ∈ engine.baseRows query table)
    (hvalues : HasValues (groupDimensions query row)) :
    ∃! answer, answer ∈ rows ∧ HasValues answer.dimensions ∧
      row ∈ aggregatedRows query table grain answer := by
  obtain ⟨answer, ⟨hanswer, hdimensions⟩, hunique⟩ :=
    existsUnique_answer_of_runQuery_ok htable hrows hcells hrow
  have hown : HasValues answer.dimensions := hdimensions ▸ hvalues
  refine ⟨answer, ⟨hanswer, hown, ?_⟩, ?_⟩
  · rw [aggregatedRows_of_runQuery_ok hcells hcovers hfree htable hrows hanswer hown]
    exact mem_rowsWith_iff.mpr ⟨hrow, hdimensions.symm⟩
  · rintro other ⟨hother, hvalues, hmem⟩
    rw [aggregatedRows_of_runQuery_ok hcells hcovers hfree htable hrows hother hvalues] at hmem
    exact hunique other ⟨hother, (mem_rowsWith_iff.mp hmem).2.symm⟩

end FloatFree

/-- **The context of a group selects its rows.** If a group has a value in every dimension, its
context selects the rows of the group from the whole table. So does a metric whose grain covers the
table, unless a filter stands on a further dimension of its grain, and each base row with values is
aggregated for exactly one such group. -/
theorem groupContext_selects {engine : Engine} {query : PivotQuery} {table : List Row}
    (htable : engine.database.get? query.factTable = some table)
    (hcells : ∀ row ∈ table, ∀ dimension ∈ query.rows, (row.cell dimension).FloatFree)
    {rows : List PivotRow} (hrows : engine.runQuery query = .ok rows) :
    let Selects (grain : List String) :=
      List.Forall₂ (fun group answer => HasValues answer.dimensions →
          aggregatedRows query table grain answer = group.2)
        (engine.groups query (.ofRows table)) rows
    Selects (engine.filterGrain query (.ofRows table)) ∧
      ∀ grain, Covers table grain → engine.FreeBeyond query table grain →
        Selects grain ∧
          ∀ row ∈ engine.baseRows query table, HasValues (groupDimensions query row) →
            ∃! answer, answer ∈ rows ∧ HasValues answer.dimensions ∧
              row ∈ aggregatedRows query table grain answer := by
  intro Selects
  refine ⟨forall₂_aggregatedRows hcells covers_filterGrain freeBeyond_filterGrain htable hrows, ?_⟩
  intro grain hcovers hfree
  refine ⟨forall₂_aggregatedRows hcells hcovers hfree htable hrows, fun row hrow hvalues => ?_⟩
  exact existsUnique_aggregatedRows hcells hcovers hfree htable hrows hrow hvalues

/-! One region, asked for through a channel that the table does not have, and a region next to a
null. -/

def europe : Row := KeyMap.ofList [("region", .string "EU")]

def nowhere : Row := KeyMap.ofList [("region", .null)]

def ordersOf (table : List Row) : Engine where
  registry := {
    factTables := KeyMap.ofList [("sales", ⟨"sales", ["region"],
      KeyMap.ofList [("n", ⟨"n", .count, none⟩)]⟩)]
    metrics := KeyMap.ofList [("orders",
      (Metric.fact "orders" "sales" "n").withGrain ["region", "channel"])]
    transforms := .empty }
  database := KeyMap.ofList [("sales", table)]
  display := .standard

def ordersByRegion (filters : Context) : PivotQuery :=
  ⟨"sales", ["region"], filters, ["orders"], []⟩

def throughWeb : Context := Context.withFilter .empty "channel" (.equals (.string "web"))

def inEurope (count : Float) (text : String) : PivotRow :=
  ⟨[("region", .string "EU")], [], [⟨"orders", some count, some text⟩]⟩

def anywhere : PivotRow := ⟨[("region", .null)], [], [⟨"orders", some 2, some "2"⟩]⟩

theorem runQuery_throughWeb :
    (ordersOf [europe]).runQuery (ordersByRegion throughWeb) = .ok [inEurope 0 "0"] := by
  have htext : Display.text? (some 0) none .standard = some "0" := by decide +kernel
  rw [inEurope, ← htext]
  rfl

theorem runQuery_ordersByRegion :
    (ordersOf [europe, nowhere]).runQuery (ordersByRegion .empty) =
      .ok [inEurope 1 "1", anywhere] := rfl

theorem covers_regionAndChannel {table : List Row}
    (hcolumns : (RowSet.ofRows table).columns = ["region"]) :
    Covers table ["region", "channel"] := by
  intro dimension hcolumn
  rw [hcolumns] at hcolumn
  exact List.mem_append_left _ hcolumn

theorem freeBeyond_of_empty {grain : List String} :
    (ordersOf [europe, nowhere]).FreeBeyond (ordersByRegion .empty) [europe, nowhere] grain := by
  intro dimension filter hfilter
  cases hfilter

theorem groupContext_selects_anywhere :
    let table := [europe, nowhere]
    let query := ordersByRegion .empty
    let answers := [inEurope 1 "1", anywhere]
    (ordersOf table).runQuery query = .ok answers ∧
      List.Forall₂ (fun group answer => HasValues answer.dimensions →
          aggregatedRows query table ["region", "channel"] answer = group.2)
        ((ordersOf table).groups query (.ofRows table)) answers ∧
      ∃! answer, answer ∈ answers ∧ HasValues answer.dimensions ∧
        europe ∈ aggregatedRows query table ["region", "channel"] answer := by
  have hcells : ∀ row ∈ [europe, nowhere], ∀ dimension ∈ (ordersByRegion .empty).rows,
      (row.cell dimension).FloatFree := by
    intro row hrow dimension hdimension
    obtain rfl := List.mem_singleton.mp hdimension
    simp only [List.mem_cons, List.not_mem_nil, or_false] at hrow
    rcases hrow with rfl | rfl <;> trivial
  have htable : (ordersOf [europe, nowhere]).database.get? "sales" = some [europe, nowhere] := rfl
  obtain ⟨hselects, hexclusive⟩ :=
    (groupContext_selects htable hcells runQuery_ordersByRegion).2 ["region", "channel"]
      (covers_regionAndChannel (by decide +kernel)) freeBeyond_of_empty
  refine ⟨runQuery_ordersByRegion, hselects, hexclusive europe List.mem_cons_self ?_⟩
  intro dimension hdimension
  obtain rfl := List.mem_singleton.mp hdimension
  rfl

/-- A filter on a key of the grain that the table does not have drops a row from its own group, and
the context of a null is that of all groups. -/
theorem groupContext_not_exclusive :
    ((ordersOf [europe]).runQuery (ordersByRegion throughWeb) = .ok [inEurope 0 "0"] ∧
      Covers [europe] ["region", "channel"] ∧
      europe ∈ (ordersOf [europe]).baseRows (ordersByRegion throughWeb) [europe] ∧
      europe ∉ aggregatedRows (ordersByRegion throughWeb) [europe] ["region", "channel"]
        (inEurope 0 "0")) ∧
    ((ordersOf [europe, nowhere]).runQuery (ordersByRegion .empty) =
        .ok [inEurope 1 "1", anywhere] ∧
      Covers [europe, nowhere] ["region", "channel"] ∧
      ∀ answer ∈ [inEurope 1 "1", anywhere],
        europe ∈ aggregatedRows (ordersByRegion .empty) [europe, nowhere] ["region", "channel"]
          answer) := by
  constructor
  · refine ⟨runQuery_throughWeb, covers_regionAndChannel (by decide +kernel), ?_, ?_⟩
    · exact mem_baseRows_iff.mpr ⟨List.mem_singleton_self europe, by decide +kernel⟩
    · have hnone : aggregatedRows (ordersByRegion throughWeb) [europe] ["region", "channel"]
          (inEurope 0 "0") = [] := rfl
      rw [hnone]
      exact List.not_mem_nil
  · refine ⟨runQuery_ordersByRegion, covers_regionAndChannel (by decide +kernel), ?_⟩
    intro answer hanswer
    simp only [List.mem_cons, List.not_mem_nil, or_false] at hanswer
    rcases hanswer with rfl | rfl
    · exact List.mem_cons_self
    · exact List.mem_cons_self

end Engine

end MetricLayer
