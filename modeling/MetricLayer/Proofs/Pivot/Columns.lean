import MetricLayer.CommandLine
import MetricLayer.Proofs.Pivot.Groups

/-!
# The columns of a printed answer

The table of an answer takes its columns from the first row: a cell stands in the column of its
place in its row, and nowhere if the first row is shorter. So the cells of a row stand under their
own names just when its names begin the names of the first row. Rows differ in their labels only,
and all of them are printed in place if the same lookups find a label for every row.
-/

namespace MetricLayer

namespace TextTable

/-- Where a column begins: two blanks stand between columns. -/
def columnStart : List Nat → Nat → Nat
  | width :: widths, column + 1 => width + (2 + columnStart widths column)
  | _, _ => 0

/-- What a line shows in a column. -/
def columnText (widths : List Nat) (column : Nat) (line : String) : String :=
  String.ofList ((line.toList.drop (columnStart widths column)).take (widths[column]?.getD 0))

/-- No cell is wider than its column. -/
def Fits (widths : List Nat) (cells : List String) : Prop :=
  ∀ (column width : Nat) (cell : String), widths[column]? = some width →
    cells[column]? = some cell → cell.length ≤ width

theorem line_nil (widths : List Nat) : line widths [] = "" := by
  rw [line, List.zipWith_nil_right]
  rfl

theorem toList_line_cons (width : Nat) (widths : List Nat) (cell : String) (cells : List String) :
    (line (width :: widths) (cell :: cells)).toList =
      (padRight width cell).toList ++
        if widths = [] ∨ cells = [] then [] else ' ' :: ' ' :: (line widths cells).toList := by
  rw [line, line, String.toList_intercalate, String.toList_intercalate]
  cases widths with
  | nil => simp
  | cons next widths =>
      cases cells with
      | nil => simp
      | cons other cells => simp

theorem length_padRight_of_le {width : Nat} {cell : String} (h : cell.length ≤ width) :
    (padRight width cell).toList.length = width := by
  rw [String.length_toList, length_padRight, Nat.max_eq_left h]

/-- A line shows in each column the cell of that place, and nothing where it has ended. -/
theorem columnText_line {widths : List Nat} {cells : List String} (h : Fits widths cells)
    {column width : Nat} (hwidth : widths[column]? = some width) :
    columnText widths column (line widths cells) =
      (cells[column]?.map (padRight width)).getD "" := by
  induction widths generalizing cells column with
  | nil => cases hwidth
  | cons next widths ih =>
      cases cells with
      | nil =>
          rw [line_nil, columnText]
          simp
      | cons cell cells =>
          have hlength := length_padRight_of_le (h 0 next cell rfl rfl)
          rw [columnText, toList_line_cons]
          cases column with
          | zero =>
              obtain rfl : next = width := Option.some.inj hwidth
              change String.ofList (((_ : List Char).drop 0).take next) = padRight next cell
              rw [List.drop_zero, List.take_left' hlength, String.ofList_toList]
          | succ column =>
              rw [List.getElem?_cons_succ] at hwidth
              have hrest : Fits widths cells := fun place room other hroom hother =>
                h (place + 1) room other hroom hother
              rw [columnStart, ← List.drop_drop, List.drop_left' hlength, ← List.drop_drop,
                List.getElem?_cons_succ, List.getElem?_cons_succ, ← ih hrest hwidth, columnText]
              cases widths with
              | nil => cases hwidth
              | cons other widths =>
                  cases cells with
                  | nil => simp [line_nil]
                  | cons other cells => simp

theorem le_foldl_max (cells : List String) (width : Nat) :
    width ≤ cells.foldl (fun width cell => max width cell.length) width ∧
      ∀ cell ∈ cells,
        cell.length ≤ cells.foldl (fun width cell => max width cell.length) width := by
  induction cells generalizing width with
  | nil => exact ⟨Nat.le_refl _, nofun⟩
  | cons head cells ih =>
      obtain ⟨hwidth, hcells⟩ := ih (max width head.length)
      rw [List.foldl_cons]
      refine ⟨Nat.le_trans (Nat.le_max_left _ _) hwidth, fun cell hcell => ?_⟩
      rcases List.mem_cons.mp hcell with rfl | hcell
      · exact Nat.le_trans (Nat.le_max_right _ _) hwidth
      · exact hcells cell hcell

variable {table : TextTable}

theorem getElem?_widths {column width : Nat} (h : table.widths[column]? = some width) :
    ∃ header, table.headers[column]? = some header ∧ width = table.columnWidth column header := by
  rw [widths, List.getElem?_mapIdx] at h
  obtain ⟨header, hheader, hwidth⟩ := Option.map_eq_some_iff.mp h
  exact ⟨header, hheader, hwidth.symm⟩

theorem fits_headers : Fits table.widths table.headers := by
  intro column width cell hwidth hcell
  obtain ⟨header, hheader, rfl⟩ := getElem?_widths hwidth
  obtain rfl : header = cell := Option.some.inj (hheader.symm.trans hcell)
  exact (le_foldl_max _ _).1

theorem fits_of_mem_body {cells : List String} (h : cells ∈ table.body) :
    Fits table.widths cells := by
  intro column width cell hwidth hcell
  obtain ⟨header, _, rfl⟩ := getElem?_widths hwidth
  exact (le_foldl_max _ _).2 cell (List.mem_filterMap.mpr ⟨cells, h, hcell⟩)

end TextTable

namespace PivotRow

theorem length_names (row : PivotRow) : row.names.length = row.texts.length := by
  simp [names, texts]

/-- Every cell of the row is shown, under its own name. -/
def ShownUnder (row : PivotRow) (headers : List String) (widths : List Nat) (line : String) :
    Prop :=
  ∀ (column : Nat) (name text : String), row.names[column]? = some name →
    row.texts[column]? = some text →
    headers[column]? = some name ∧
      TextTable.columnText widths column line = padRight (widths[column]?.getD 0) text

end PivotRow

theorem prefix_of_getElem? {α : Type} {first second : List α}
    (h : ∀ (place : Nat) (item : α), first[place]? = some item → second[place]? = some item) :
    first <+: second := by
  induction first generalizing second with
  | nil => exact List.nil_prefix
  | cons item first ih =>
      cases second with
      | nil => cases h 0 item rfl
      | cons other second =>
          obtain rfl : other = item := Option.some.inj (h 0 item rfl)
          exact List.cons_prefix_cons.mpr
            ⟨rfl, ih fun place item hitem => h (place + 1) item hitem⟩

namespace TextTable

variable {table : TextTable} {row : PivotRow}

theorem columnText_body (h : row.texts ∈ table.body) {column width : Nat}
    (hwidth : table.widths[column]? = some width) :
    columnText table.widths column (line table.widths row.texts) =
      (row.texts[column]?.map (padRight width)).getD "" :=
  columnText_line (fits_of_mem_body h) hwidth

theorem length_widths (table : TextTable) : table.widths.length = table.headers.length :=
  List.length_mapIdx

theorem shownUnder_iff (h : row.texts ∈ table.body) :
    row.ShownUnder table.headers table.widths (line table.widths row.texts) ↔
      row.names <+: table.headers := by
  constructor
  · intro hshown
    refine prefix_of_getElem? fun place name hname => ?_
    have hplace : place < row.texts.length := by
      rw [← row.length_names]
      exact (List.getElem?_eq_some_iff.mp hname).1
    exact (hshown place name _ hname (List.getElem?_eq_getElem hplace)).1
  · rintro ⟨others, hheaders⟩ column name text hname htext
    have hheader : table.headers[column]? = some name := by
      rw [← hheaders, List.getElem?_append_left (List.getElem?_eq_some_iff.mp hname).1, hname]
    have hcolumn : column < table.widths.length := by
      rw [length_widths]
      exact (List.getElem?_eq_some_iff.mp hheader).1
    have hwidth := List.getElem?_eq_getElem hcolumn
    rw [columnText_body h hwidth, hwidth, htext]
    exact ⟨hheader, rfl⟩

end TextTable

namespace LabelLookup

/-- The lookups that find a label for the values. -/
def found (lookups : List LabelLookup) (dimensions : List (String × Value))
    (database : Database) : List LabelLookup :=
  lookups.filter fun lookup => (lookup.label? dimensions database).isSome

theorem label?_name {lookup : LabelLookup} {dimensions : List (String × Value)}
    {database : Database} {label : String × Value}
    (h : lookup.label? dimensions database = some label) : label.1 = lookup.shownAs := by
  obtain ⟨value, _, h⟩ := Option.bind_eq_some_iff.mp h
  split at h
  · cases h
  · obtain ⟨found, _, h⟩ := Option.bind_eq_some_iff.mp h
    rw [← Option.some.inj h]

theorem map_name_resolveLabels (lookups : List LabelLookup) (dimensions : List (String × Value))
    (database : Database) :
    (resolveLabels lookups dimensions database).map (·.1) =
      (found lookups dimensions database).map shownAs := by
  induction lookups with
  | nil => rfl
  | cons lookup lookups ih =>
      rw [resolveLabels, found] at *
      rw [List.filterMap_cons, List.filter_cons]
      cases hlabel : lookup.label? dimensions database with
      | none => exact ih
      | some label =>
          rw [Option.isSome_some, if_pos rfl, List.map_cons, List.map_cons, ← ih,
            label?_name hlabel]

end LabelLookup

namespace Engine

open Evaluation

variable {engine : Engine} {query : PivotQuery}

/-- The names that head a row beside its dimensions: those of its labels and the metrics. -/
def answerNames (engine : Engine) (query : PivotQuery) (row : PivotRow) : List String :=
  (LabelLookup.found query.labels row.dimensions engine.database).map LabelLookup.shownAs ++
    query.metrics

theorem ensures_pivotRow_names (first : Row) :
    Ensures (fun _ => True) (engine.pivotRow query first) (Returns fun row =>
      row.names = query.rows ++ engine.answerNames query row) := by
  refine ensures_bind_returns (ensures_mapM_returns fun name _ => ensures_metricCell _ name)
    fun cells hcells => ensures_pure_returns ?_
  have hmetrics : cells.map MetricCell.name = query.metrics := by
    rw [← List.forall₂_eq_eq_eq, List.forall₂_map_left_iff]
    exact hcells.flip
  have hdimensions : (groupDimensions query first).map (·.1) = query.rows := by
    rw [groupDimensions, List.map_map]
    exact List.map_id _
  rw [PivotRow.names, List.map_append, hmetrics, hdimensions, List.append_assoc,
    LabelLookup.map_name_resolveLabels]
  rfl

theorem names_of_runQuery_ok {rows : List PivotRow} (h : engine.runQuery query = .ok rows)
    {row : PivotRow} (hrow : row ∈ rows) :
    row.names = query.rows ++ engine.answerNames query row := by
  cases htable : engine.database.get? query.factTable with
  | none =>
      rw [runQuery, loadedRows, Database.rowSet?, htable] at h
      cases h
  | some table =>
      rw [runQuery, loadedRows, Database.rowSet?, htable] at h
      have hrows := (ensures_mapM_returns (fun first _ => ensures_pivotRow_names first) .empty
        trivial).1 rows h
      obtain ⟨first, _, hnames⟩ := exists_of_forall₂ hrows hrow
      exact hnames

/-- **Where the cells of an answer are printed.** Below the names of the first row each row shows in
every column the cell of that place, or nothing. All of its cells stand under their own names just
when the names of its labels and the metrics begin those of the first row. -/
theorem shownUnder_pivotLines_iff {first : PivotRow} {rest : List PivotRow}
    (h : engine.runQuery query = .ok (first :: rest)) :
    let table : TextTable := ⟨first.names, (first :: rest).map PivotRow.texts⟩
    let shown := TextTable.line table.widths
    CommandLine.pivotLines (first :: rest) =
        shown first.names :: shown (TextTable.rule table.widths) ::
          (first :: rest).map (fun row => shown row.texts) ∧
      (∀ column width, table.widths[column]? = some width →
        TextTable.columnText table.widths column (shown first.names) =
          (first.names[column]?.map (padRight width)).getD "") ∧
      ∀ row ∈ first :: rest,
        (∀ column width, table.widths[column]? = some width →
          TextTable.columnText table.widths column (shown row.texts) =
            (row.texts[column]?.map (padRight width)).getD "") ∧
        (row.ShownUnder first.names table.widths (shown row.texts) ↔
          engine.answerNames query row <+: engine.answerNames query first) := by
  intro table shown
  refine ⟨?_, fun column width hwidth => ?_, fun row hrow => ⟨fun column width hwidth => ?_, ?_⟩⟩
  · change (first.names :: TextTable.rule table.widths :: table.body).map shown = _
    rw [List.map_cons, List.map_cons, List.map_map]
    rfl
  · exact TextTable.columnText_line TextTable.fits_headers hwidth
  · exact TextTable.columnText_body (List.mem_map_of_mem hrow) hwidth
  · have hiff := @TextTable.shownUnder_iff table row (List.mem_map_of_mem hrow)
    refine hiff.trans ?_
    change row.names <+: first.names ↔ _
    rw [names_of_runQuery_ok h hrow, names_of_runQuery_ok h List.mem_cons_self,
      List.prefix_append_right_inj]

/-- The second city is not in the table of the labels. -/
def cityRows : Database :=
  KeyMap.ofList [
    ("sales", [KeyMap.ofList [("city", .string "R")], KeyMap.ofList [("city", .string "B")]]),
    ("cities", [KeyMap.ofList [("id", .string "R"), ("title", .string "Riga")]])]

def cityRegistry : Registry where
  factTables := KeyMap.ofList [("sales",
    ⟨"sales", ["city"], KeyMap.ofList [("orders", ⟨"city", .count, none⟩)]⟩)]
  metrics := KeyMap.ofList [("orders", .fact "orders" "sales" "orders")]
  transforms := .builtin .standard

def byCity : PivotQuery :=
  ⟨"sales", ["city"], .empty, ["orders"], [⟨"city", "cities", "id", "title", "title"⟩]⟩

/-- The number of orders of the second city stands in the column of the titles. -/
theorem shownUnder_pivotLines_byCity :
    ∃ first second,
      Engine.runQuery ⟨cityRegistry, cityRows, .standard⟩ byCity = .ok [first, second] ∧
      CommandLine.pivotLines [first, second] =
        ["city  title  orders", "----  -----  ------", "R     Riga   1     ", "B     1    "] ∧
      let table : TextTable := ⟨first.names, [first.texts, second.texts]⟩
      first.ShownUnder first.names table.widths (TextTable.line table.widths first.texts) ∧
        ¬ second.ShownUnder first.names table.widths
          (TextTable.line table.widths second.texts) := by
  have hanswer : (Engine.runQuery ⟨cityRegistry, cityRows, .standard⟩ byCity).toOption.map
      (fun rows => (CommandLine.pivotLines rows,
        rows.map (answerNames ⟨cityRegistry, cityRows, .standard⟩ byCity))) =
      some (["city  title  orders", "----  -----  ------", "R     Riga   1     ",
        "B     1    "], [["title", "orders"], ["orders"]]) := by
    decide +kernel
  cases hrows : Engine.runQuery ⟨cityRegistry, cityRows, .standard⟩ byCity with
  | error error =>
      rw [hrows] at hanswer
      cases hanswer
  | ok rows =>
      rw [hrows] at hanswer
      obtain ⟨hlines, hnames⟩ := Prod.mk.inj (Option.some.inj hanswer)
      match rows, hnames with
      | [first, second], hnames =>
          injection hnames with hfirst hnames
          injection hnames with hsecond _
          have hshown := (shownUnder_pivotLines_iff hrows).2.2
          refine ⟨first, second, rfl, hlines, ?_, fun hsecond_shown => ?_⟩
          · exact (hshown first List.mem_cons_self).2.mpr (List.prefix_refl _)
          · have hprefix := (hshown second (by simp)).2.mp hsecond_shown
            rw [hfirst, hsecond] at hprefix
            revert hprefix
            decide

end Engine

end MetricLayer
