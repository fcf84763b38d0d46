import MetricLayer.Pivot
import MetricLayer.Proofs.Context.Key
import MetricLayer.Proofs.Evaluation.Runs
import MetricLayer.Proofs.Rows.Grouping
import MetricLayer.Proofs.Rows.Narrowing
import Mathlib.Data.List.Nodup

/-!
# The groups of a pivot

Groups are told apart by the text of their values. Values other than floating-point numbers have a
spelling of their own, so the groups of such values are the classes of rows with equal values, and
an answer lists these values once each, in the order in which they first occur in the table.
-/

namespace MetricLayer

namespace Engine

open Evaluation

section Key

variable {query : PivotQuery} {first second : Row}

theorem groupDimensions_eq_iff :
    groupDimensions query first = groupDimensions query second ↔
      ∀ dimension ∈ query.rows, first.cell dimension = second.cell dimension := by
  rw [groupDimensions, groupDimensions, List.map_inj_left]
  exact forall₂_congr fun dimension _ => by rw [Prod.mk.injEq, eq_self_iff_true, true_and]

/-- Rows are in one group if their cells have one spelling. -/
theorem groupKey_eq_iff_spelling : groupKey query.rows first = groupKey query.rows second ↔
    ∀ dimension ∈ query.rows,
      (first.cell dimension).spelling = (second.cell dimension).spelling := by
  have hspelling : ∀ row : Row,
      (Json.array (query.rows.map fun name => (row.cell name).canonical.toJson)).spelling =
        .array (query.rows.map fun name => (row.cell name).spelling) := by
    intro row
    change Json.Spelling.array (Json.itemSpellings _) = _
    rw [Json.itemSpellings_eq_map, List.map_map]
    rfl
  rw [← List.map_inj_left, ← Json.Spelling.array.injEq, ← hspelling, ← hspelling]
  exact ⟨Json.spelling_eq_of_compact, Json.compact_eq_of_spelling⟩

theorem groupKey_eq_iff (hfirst : ∀ dimension ∈ query.rows, (first.cell dimension).FloatFree)
    (hsecond : ∀ dimension ∈ query.rows, (second.cell dimension).FloatFree) :
    groupKey query.rows first = groupKey query.rows second ↔
      groupDimensions query first = groupDimensions query second := by
  rw [groupDimensions_eq_iff, groupKey_eq_iff_spelling]
  exact forall₂_congr fun dimension hdimension =>
    ⟨Value.spelling_inj (hfirst dimension hdimension) (hsecond dimension hdimension),
      congrArg Value.spelling⟩

end Key

/-- The rows of the table that pass the filters of the query. -/
def baseRows (engine : Engine) (query : PivotQuery) (table : List Row) : List Row :=
  ((RowSet.ofRows table).narrowToGrain query.filters
    (engine.filterGrain query (.ofRows table))).rows

open scoped Classical in
/-- Those of them that have these values in the dimensions of the query. -/
noncomputable def rowsWith (engine : Engine) (query : PivotQuery) (table : List Row)
    (values : List (String × Value)) : List Row :=
  (engine.baseRows query table).filter fun row => groupDimensions query row = values

variable {engine : Engine} {query : PivotQuery} {table : List Row}

theorem mem_baseRows_iff {row : Row} :
    row ∈ engine.baseRows query table ↔
      row ∈ table ∧ query.filters.Admits (engine.filterGrain query (.ofRows table)) row := by
  rw [baseRows, RowSet.mem_rows_narrowToGrain_iff, RowSet.rows_ofRows]

theorem mem_rowsWith_iff {values : List (String × Value)} {row : Row} :
    row ∈ engine.rowsWith query table values ↔
      row ∈ engine.baseRows query table ∧ groupDimensions query row = values := by
  classical
  rw [rowsWith, List.mem_filter, decide_eq_true_iff]

theorem groups_ofRows :
    engine.groups query (.ofRows table) =
      groupBy (groupKey query.rows) (engine.baseRows query table) := by
  rw [groups, RowSet.groupBy, baseRows]

theorem map_groupKey_leaders :
    (leaders (engine.groups query (.ofRows table))).map (groupKey query.rows) =
      ((engine.baseRows query table).map (groupKey query.rows)).eraseDups := by
  rw [groups_ofRows, leaders, map_key_heads_groupBy]

theorem mem_baseRows_of_mem_leaders {first : Row}
    (h : first ∈ leaders (engine.groups query (.ofRows table))) :
    first ∈ engine.baseRows query table := by
  obtain ⟨group, hgroup, hhead⟩ := List.mem_filterMap.mp h
  rw [groups_ofRows] at hgroup
  exact mem_of_mem_groupBy hgroup (List.mem_of_head? hhead)

section FloatFree

variable (hcells : ∀ row ∈ table, ∀ dimension ∈ query.rows, (row.cell dimension).FloatFree)

include hcells

theorem groupKey_eq_iff_of_mem {first second : Row} (hfirst : first ∈ engine.baseRows query table)
    (hsecond : second ∈ engine.baseRows query table) :
    groupKey query.rows first = groupKey query.rows second ↔
      groupDimensions query first = groupDimensions query second :=
  groupKey_eq_iff (hcells first (mem_baseRows_iff.mp hfirst).1)
    (hcells second (mem_baseRows_iff.mp hsecond).1)

/-- A group holds the rows that have the values of its first row. -/
theorem map_snd_groups :
    (engine.groups query (.ofRows table)).map Prod.snd =
      (leaders (engine.groups query (.ofRows table))).map fun leader =>
        engine.rowsWith query table (groupDimensions query leader) := by
  have hkeys : (engine.groups query (.ofRows table)).map Prod.snd =
      ((leaders (engine.groups query (.ofRows table))).map (groupKey query.rows)).map fun key =>
        (engine.baseRows query table).filter fun row => groupKey query.rows row = key := by
    rw [map_groupKey_leaders, groups_ofRows, groupBy_eq, List.map_map]
    rfl
  rw [hkeys, List.map_map]
  refine List.map_congr_left fun leader hleader => List.filter_congr fun row hrow => ?_
  rw [decide_eq_decide]
  exact groupKey_eq_iff_of_mem hcells hrow (mem_baseRows_of_mem_leaders hleader)

theorem exists_leader {row : Row} (hrow : row ∈ engine.baseRows query table) :
    ∃ leader ∈ leaders (engine.groups query (.ofRows table)),
      groupDimensions query leader = groupDimensions query row := by
  have hkey : groupKey query.rows row ∈
      (leaders (engine.groups query (.ofRows table))).map (groupKey query.rows) := by
    rw [map_groupKey_leaders, List.mem_eraseDups]
    exact List.mem_map_of_mem hrow
  obtain ⟨leader, hleader, heq⟩ := List.mem_map.mp hkey
  exact ⟨leader, hleader,
    (groupKey_eq_iff_of_mem hcells (mem_baseRows_of_mem_leaders hleader) hrow).mp heq⟩

end FloatFree

theorem nodup_leaders :
    ((leaders (engine.groups query (.ofRows table))).map (groupDimensions query)).Nodup := by
  have hkeys := nodup_eraseDups ((engine.baseRows query table).map (groupKey query.rows))
  rw [← map_groupKey_leaders] at hkeys
  refine List.pairwise_map.mpr ((List.pairwise_map.mp hkeys).imp ?_)
  intro first second hne heq
  refine hne ?_
  rw [groupDimensions_eq_iff] at heq
  rw [groupKey, groupKey, List.map_congr_left fun dimension hdimension => by
    rw [heq dimension hdimension]]

/-- A row with the first values stands in the list before any row with the second ones. -/
def OccursBefore (query : PivotQuery) (rows : List Row) (first second : List (String × Value)) :
    Prop :=
  ∃ before row after, rows = before ++ row :: after ∧ groupDimensions query row = first ∧
    ∀ other ∈ before, groupDimensions query other ≠ second

theorem pairwise_leaders
    (hcells : ∀ row ∈ table, ∀ dimension ∈ query.rows, (row.cell dimension).FloatFree) :
    ((leaders (engine.groups query (.ofRows table))).map (groupDimensions query)).Pairwise
      (OccursBefore query (engine.baseRows query table)) := by
  have hkeys := pairwise_eraseDups ((engine.baseRows query table).map (groupKey query.rows))
  rw [← map_groupKey_leaders, List.pairwise_map] at hkeys
  refine List.pairwise_map.mpr (hkeys.imp_of_mem ?_)
  rintro first second hfirst hsecond ⟨_, _, hsplit, hlater⟩
  obtain ⟨before, others, hrows, rfl, hothers⟩ := List.map_eq_append_iff.mp hsplit
  obtain ⟨row, after, rfl, hrow, _⟩ := List.map_eq_cons_iff.mp hothers
  have hmem : row ∈ engine.baseRows query table := by
    rw [hrows]
    exact List.mem_append_right before List.mem_cons_self
  refine ⟨before, row, after, hrows, ?_, fun other hother heq => hlater ?_⟩
  · exact (groupKey_eq_iff_of_mem hcells hmem (mem_baseRows_of_mem_leaders hfirst)).mp hrow
  · have hbase : other ∈ engine.baseRows query table := by
      rw [hrows]
      exact List.mem_append_left _ hother
    rw [← (groupKey_eq_iff_of_mem hcells hbase (mem_baseRows_of_mem_leaders hsecond)).mpr heq]
    exact List.mem_map_of_mem hother

theorem ensures_metricCell (context : Context) (name : String) :
    Ensures (fun _ => True) (engine.metricCell context name) (Returns fun cell =>
      cell.name = name) := by
  refine ensures_bind_returns (ensures_any _) fun value _ => ?_
  exact ensures_pure_returns rfl

theorem ensures_pivotRow (first : Row) :
    Ensures (fun _ => True) (engine.pivotRow query first) (Returns fun row =>
      row.dimensions = groupDimensions query first ∧
        row.cells.map MetricCell.name = query.metrics) := by
  refine ensures_bind_returns (ensures_mapM_returns fun name _ => ensures_metricCell _ name)
    fun cells hcells => ensures_pure_returns ⟨rfl, ?_⟩
  rw [← List.forall₂_eq_eq_eq, List.forall₂_map_left_iff]
  exact hcells.flip

/-- An answer has one row for each group, with the values of the first row of the group. -/
theorem forall₂_of_runQuery_ok (htable : engine.database.get? query.factTable = some table)
    {rows : List PivotRow} (h : engine.runQuery query = .ok rows) :
    List.Forall₂ (fun first row => row.dimensions = groupDimensions query first ∧
        row.cells.map MetricCell.name = query.metrics)
      (leaders (engine.groups query (.ofRows table))) rows := by
  rw [runQuery, loadedRows, Database.rowSet?, htable] at h
  exact (ensures_mapM_returns (fun first _ => ensures_pivotRow first) .empty trivial).1 rows h

section Answers

variable (htable : engine.database.get? query.factTable = some table) {rows : List PivotRow}
  (hrows : engine.runQuery query = .ok rows)

include htable hrows

theorem map_dimensions_of_runQuery_ok :
    rows.map PivotRow.dimensions =
      (leaders (engine.groups query (.ofRows table))).map (groupDimensions query) := by
  rw [← List.forall₂_eq_eq_eq, List.forall₂_map_left_iff, List.forall₂_map_right_iff]
  exact ((forall₂_of_runQuery_ok htable hrows).imp fun first row hrow => hrow.1).flip

theorem nodup_of_runQuery_ok : (rows.map PivotRow.dimensions).Nodup := by
  rw [map_dimensions_of_runQuery_ok htable hrows]
  exact nodup_leaders

theorem exists_row_of_runQuery_ok {answer : PivotRow} (hanswer : answer ∈ rows) :
    ∃ row ∈ engine.baseRows query table, answer.dimensions = groupDimensions query row := by
  have hmem : answer.dimensions ∈ rows.map PivotRow.dimensions := List.mem_map_of_mem hanswer
  rw [map_dimensions_of_runQuery_ok htable hrows] at hmem
  obtain ⟨leader, hleader, heq⟩ := List.mem_map.mp hmem
  exact ⟨leader, mem_baseRows_of_mem_leaders hleader, heq.symm⟩

variable (hcells : ∀ row ∈ table, ∀ dimension ∈ query.rows, (row.cell dimension).FloatFree)

include hcells

theorem existsUnique_answer_of_runQuery_ok {row : Row}
    (hrow : row ∈ engine.baseRows query table) :
    ∃! answer, answer ∈ rows ∧ answer.dimensions = groupDimensions query row := by
  obtain ⟨leader, hleader, hvalues⟩ := exists_leader hcells hrow
  have hmem : groupDimensions query leader ∈ rows.map PivotRow.dimensions := by
    rw [map_dimensions_of_runQuery_ok htable hrows]
    exact List.mem_map_of_mem hleader
  obtain ⟨answer, hanswer, heq⟩ := List.mem_map.mp hmem
  refine ⟨answer, ⟨hanswer, heq.trans hvalues⟩, ?_⟩
  rintro other ⟨hother, hsame⟩
  exact List.inj_on_of_nodup_map (nodup_of_runQuery_ok htable hrows) hother hanswer
    (hsame.trans (heq.trans hvalues).symm)

theorem map_snd_groups_of_runQuery_ok :
    (engine.groups query (.ofRows table)).map Prod.snd =
      rows.map fun answer => engine.rowsWith query table answer.dimensions := by
  rw [map_snd_groups hcells]
  calc (leaders (engine.groups query (.ofRows table))).map
        (fun leader => engine.rowsWith query table (groupDimensions query leader))
      = ((leaders (engine.groups query (.ofRows table))).map (groupDimensions query)).map
          (engine.rowsWith query table) := by rw [List.map_map]; rfl
    _ = (rows.map PivotRow.dimensions).map (engine.rowsWith query table) := by
        rw [map_dimensions_of_runQuery_ok htable hrows]
    _ = rows.map fun answer => engine.rowsWith query table answer.dimensions := by
        rw [List.map_map]; rfl

end Answers

/-- **Groups are the classes of rows with equal values.** The rows of an answer have the values of
the base rows, each combination once and in the order of its first occurrence, and the group behind
a row holds all base rows with its values, so each base row belongs to one row of the answer. -/
theorem runQuery_partitions {engine : Engine} {query : PivotQuery} {table : List Row}
    (htable : engine.database.get? query.factTable = some table)
    (hcells : ∀ row ∈ table, ∀ dimension ∈ query.rows, (row.cell dimension).FloatFree)
    {rows : List PivotRow} (hrows : engine.runQuery query = .ok rows) :
    let base := engine.baseRows query table
    let values (row : Row) := query.rows.map fun dimension => (dimension, row.cell dimension)
    (∀ answer ∈ rows, ∃ row ∈ base, answer.dimensions = values row) ∧
      (∀ row ∈ base, ∃! answer, answer ∈ rows ∧ answer.dimensions = values row) ∧
      (rows.map PivotRow.dimensions).Nodup ∧
      (rows.map PivotRow.dimensions).Pairwise (OccursBefore query base) ∧
      (engine.groups query (.ofRows table)).map Prod.snd =
        rows.map fun answer => engine.rowsWith query table answer.dimensions := by
  intro base values
  refine ⟨fun answer hanswer => exists_row_of_runQuery_ok htable hrows hanswer,
    fun row hrow => existsUnique_answer_of_runQuery_ok htable hrows hcells hrow,
    nodup_of_runQuery_ok htable hrows, ?_, map_snd_groups_of_runQuery_ok htable hrows hcells⟩
  rw [map_dimensions_of_runQuery_ok htable hrows]
  exact pairwise_leaders hcells

/-! Texts that would run together without quotes, a missing cell next to a null, and a row of
another year, which the filter of the query drops. -/

def shopRows : List Row := [
  KeyMap.ofList [("year", .int 2024), ("city", .string "a\",\"b"), ("shop", .string "c")],
  KeyMap.ofList [("year", .int 2024), ("city", .string "a")],
  KeyMap.ofList [("year", .int 2023), ("city", .string "b"), ("shop", .string "c")],
  KeyMap.ofList [("year", .int 2024), ("city", .string "a"), ("shop", .string "b\",\"c")],
  KeyMap.ofList [("year", .int 2024), ("city", .string "a"), ("shop", .null)]]

def shops : Engine := ⟨⟨.empty, .empty, .empty⟩, KeyMap.ofList [("sales", shopRows)], .standard⟩

def byShop : PivotQuery :=
  ⟨"sales", ["city", "shop"], Context.withFilter .empty "year" (.equals (.int 2024)), [], []⟩

theorem floatFree_shopRows :
    ∀ row ∈ shopRows, ∀ dimension ∈ byShop.rows, (row.cell dimension).FloatFree := by
  intro row hrow dimension hdimension
  simp only [shopRows, byShop, List.mem_cons, List.not_mem_nil, or_false] at hrow hdimension
  rcases hrow with rfl | rfl | rfl | rfl | rfl <;> rcases hdimension with rfl | rfl <;> trivial

theorem runQuery_partitions_byShop :
    ∃ rows, shops.runQuery byShop = .ok rows ∧ rows.length = 3 ∧
      let base := shops.baseRows byShop shopRows
      let values (row : Row) := byShop.rows.map fun dimension => (dimension, row.cell dimension)
      base.length = 4 ∧
        (∀ answer ∈ rows, ∃ row ∈ base, answer.dimensions = values row) ∧
        (∀ row ∈ base, ∃! answer, answer ∈ rows ∧ answer.dimensions = values row) ∧
        (rows.map PivotRow.dimensions).Nodup ∧
        (rows.map PivotRow.dimensions).Pairwise (OccursBefore byShop base) ∧
        (shops.groups byShop (.ofRows shopRows)).map Prod.snd =
          rows.map fun answer => shops.rowsWith byShop shopRows answer.dimensions := by
  have hlength : (shops.runQuery byShop).toOption.map List.length = some 3 := by decide +kernel
  have hbase : (shops.baseRows byShop shopRows).length = 4 := by decide +kernel
  cases hrows : shops.runQuery byShop with
  | error error =>
      rw [hrows] at hlength
      cases hlength
  | ok rows =>
      rw [hrows] at hlength
      exact ⟨rows, rfl, Option.some.inj hlength, hbase,
        runQuery_partitions rfl floatFree_shopRows hrows⟩

end Engine

end MetricLayer
