import MetricLayer.Proofs.Decimal.WholeDoubles
import MetricLayer.Proofs.Pivot.Groups
import MetricLayer.Proofs.Value.Alike

/-!
# Texts of equal values

Equal values have one canonical text, with one exception: a whole number equals the double that it
is rounded to, and unless that is the number itself the two are written apart. So equal contexts
have one key, and rows with equal cells are in one group, if they hold no such pair.
-/

namespace MetricLayer

open Decimal Decimal.Binary

namespace Value

theorem wholeFloat?_eq_some_iff {x : Float} {n : Int64} :
    wholeFloat? x = some n ↔ ∃ value, ofFloat? x = some value ∧ value.toRat = n.toInt := by
  constructor
  · intro h
    obtain ⟨value, _, hvalue, hexact, _⟩ := exists_of_wholeFloat? h
    exact ⟨value, hvalue, hexact⟩
  · rintro ⟨value, hvalue, hexact⟩
    rw [wholeFloat?, hvalue, Option.bind_eq_bind, Option.bind_some, toInt?_of_toRat hexact]
    exact int64?_toInt n

/-- What equals a finite double is the same number. -/
theorem exists_of_compareFloats_eq {x y : Float} {second : Binary}
    (h : compareFloats x y = some .eq) (hy : ofFloat? y = some second) :
    ∃ first, ofFloat? x = some first ∧ first.toRat = second.toRat := by
  cases hx : ofFloat? x with
  | some first =>
      rw [compareFloats_of_ofFloat? hx hy, Option.some_inj, compare_eq_iff_eq] at h
      exact ⟨first, rfl, h⟩
  | none =>
      -- Neither an infinity nor a NaN has the unpacked form of a number.
      rw [compareFloats_eq, unpack_of_ofFloat? hy] at h
      have hsame := eq_of_compare h
      unfold unpacked at hsame
      rcases unpack_of_not_finite hx with ⟨sign, hunpack⟩ | hunpack
      · rw [hunpack] at hsame
        split at hsame <;> simp at hsame
      · rw [hunpack] at hsame
        split at hsame <;> simp at hsame

/-- Doubles that are equal are the same one, or zeros. -/
theorem spelling_eq_of_beq {x y : Float} (h : (x == y) = true) :
    (float x).spelling = (float y).spelling := by
  have horder := (beq_iff_compareFloats x y).mp h
  cases hy : ofFloat? y with
  | none =>
      have hx : ofFloat? x = none := by
        by_contra hx
        obtain ⟨first, hfirst⟩ := Option.ne_none_iff_exists'.mp hx
        have hswap := (beq_iff_compareFloats y x).mp (BEq.symm h)
        obtain ⟨second, hsecond, _⟩ := exists_of_compareFloats_eq hswap hfirst
        rw [hy] at hsecond
        cases hsecond
      have hplain : ∀ {z : Float}, ofFloat? z = none →
          (float z).spelling = .word "null".toList := by
        intro z hz
        have hwhole : wholeFloat? z = none := by
          rw [wholeFloat?, hz]
          rfl
        rw [spelling_float hwhole, writeFloat_of_not_finite (by rw [isFinite, hz]; rfl)]
      rw [hplain hx, hplain hy]
  | some second =>
      obtain ⟨first, hx, hexact⟩ := exists_of_compareFloats_eq horder hy
      have hwhole : wholeFloat? x = wholeFloat? y := by
        refine Option.ext fun n => ?_
        rw [wholeFloat?_eq_some_iff, wholeFloat?_eq_some_iff, hx, hy]
        simp only [Option.some.injEq, exists_eq_left', hexact]
      cases hfound : wholeFloat? y with
      | some n => rw [spelling, spelling, canonical, canonical, hwhole, hfound]
      | none =>
          -- Only zero has two forms, and both of them are whole.
          have hzero : first.toRat ≠ 0 := by
            intro hzero
            have hnumber : wholeFloat? y = some 0 :=
              wholeFloat?_eq_some_iff.mpr ⟨second, hy, by rw [← hexact, hzero]; rfl⟩
            rw [hfound] at hnumber
            cases hnumber
          rw [← eq_of_toRat_eq (normal_of_ofFloat? hx) (normal_of_ofFloat? hy) hexact hzero] at hy
          rw [ofFloat?_inj hx hy]

/-- Equal values are written alike: a whole number and a double if that number is a double. -/
def WrittenAlike : Value → Value → Prop
  | int n, float _ => HasDouble n.toInt.natAbs
  | float _, int n => HasDouble n.toInt.natAbs
  | _, _ => True

theorem spelling_int_eq_iff {n : Int64} {x : Float} :
    (int n).spelling = (float x).spelling ↔ wholeFloat? x = some n := by
  constructor
  · intro h
    rcases confused_of_spelling h with hconfused | hconfused
    · cases hconfused with
      | whole hwhole => exact hwhole
    · cases hconfused
  · intro h
    rw [spelling, spelling, canonical, h]
    rfl

theorem spelling_int_eq_iff_of_beq {n : Int64} {x : Float} (h : (Float.ofInt n.toInt == x) = true) :
    (int n).spelling = (float x).spelling ↔ HasDouble n.toInt.natAbs := by
  obtain ⟨rounded, hform, hrounds⟩ := exists_ofInt64 n
  have hswap := (beq_iff_compareFloats x (Float.ofInt n.toInt)).mp (BEq.symm h)
  obtain ⟨value, hvalue, hexact⟩ := exists_of_compareFloats_eq hswap hform
  rw [spelling_int_eq_iff, wholeFloat?_eq_some_iff, hvalue, ← hrounds.toRat_eq_iff, ← hexact]
  simp only [Option.some.injEq, exists_eq_left']

theorem writtenAlike_self (value : Value) : value.WrittenAlike value := by
  cases value <;> trivial

theorem spelling_eq_iff_of_equals {first second : Value} (h : (first == second) = true) :
    first.spelling = second.spelling ↔ first.WrittenAlike second := by
  by_cases hfirst : first.FloatFree
  · by_cases hsecond : second.FloatFree
    · rw [(FloatFree.beq_iff_eq hfirst hsecond).mp h]
      exact iff_of_true rfl (writtenAlike_self second)
    · obtain ⟨x, rfl⟩ := exists_float hsecond
      cases first with
      | int n => exact spelling_int_eq_iff_of_beq h
      | float y => exact hfirst.elim
      | null => cases h
      | bool value => cases h
      | string text => cases h
  · obtain ⟨x, rfl⟩ := exists_float hfirst
    cases second with
    | float y => exact iff_of_true (spelling_eq_of_beq h) trivial
    | int n => exact eq_comm.trans (spelling_int_eq_iff_of_beq (BEq.symm h))
    | null => cases h
    | bool value => cases h
    | string text => cases h

end Value

theorem map_eq_iff_of_beq {α β : Type} [BEq α] {f : α → β} {relation : α → α → Prop}
    (hiff : ∀ {value other}, (value == other) = true → (f value = f other ↔ relation value other))
    {first second : Option α} (h : (first == second) = true) :
    first.map f = second.map f ↔
      ∀ value other, first = some value → second = some other → relation value other := by
  cases first with
  | none =>
      cases second with
      | none => exact iff_of_true rfl nofun
      | some other => cases h
  | some value =>
      cases second with
      | none => cases h
      | some other =>
          rw [Option.map_some, Option.map_some, Option.some_inj, hiff h]
          constructor
          · rintro hrelation _ _ ⟨⟩ ⟨⟩
            exact hrelation
          · exact fun hrelation => hrelation value other rfl rfl

namespace Range

theorem spelling_congr {first second : Range}
    (h : ∀ bound, (first.get? bound).map Value.spelling = (second.get? bound).map Value.spelling) :
    first.spelling = second.spelling := by
  have hmembers : ∀ range : Range, range.spelling =
      .object (Bound.all.filterMap fun bound =>
        ((range.get? bound).map Value.spelling).map (bound.name, ·)) := by
    intro range
    rw [spelling, spelling_toJson, bounds, List.map_filterMap]
    congr 2
    funext bound
    rw [get?_mapBounds]
    cases range.get? bound <;> rfl
  rw [hmembers, hmembers]
  congr 2
  funext bound
  rw [h]

def WrittenAlike (first second : Range) : Prop :=
  ∀ bound value other, first.get? bound = some value → second.get? bound = some other →
    value.WrittenAlike other

theorem spelling_eq_iff_of_equals {first second : Range} (h : (first == second) = true) :
    first.spelling = second.spelling ↔ first.WrittenAlike second := by
  have hspelling : first.spelling = second.spelling ↔ ∀ bound,
      (first.get? bound).map Value.spelling = (second.get? bound).map Value.spelling :=
    ⟨get?_spelling_eq, spelling_congr⟩
  rw [hspelling]
  refine forall_congr' fun bound => ?_
  exact map_eq_iff_of_beq Value.spelling_eq_iff_of_equals
    (List.all_eq_true.mp h bound (Bound.mem_all bound))

end Range

namespace Filter

def WrittenAlike : Filter → Filter → Prop
  | equals value, equals other => value.WrittenAlike other
  | range bounds, range others => bounds.WrittenAlike others
  | _, _ => False

theorem spelling_eq_iff_of_same {first second : Filter} (h : (first == second) = true) :
    first.spelling = second.spelling ↔ first.WrittenAlike second := by
  cases first with
  | equals value =>
      cases second with
      | equals other => exact Value.spelling_eq_iff_of_equals h
      | range others => cases h
  | range bounds =>
      cases second with
      | equals other => cases h
      | range others => exact Range.spelling_eq_iff_of_equals h

end Filter

theorem lookup_of_beq_values {α : Type} [BEq α] {entries others : List (String × α)}
    (hkeys : entries.map (·.1) = others.map (·.1))
    (hvalues : (entries.map (·.2) == others.map (·.2)) = true) (name : String) :
    (entries.lookup name == others.lookup name) = true := by
  induction entries generalizing others with
  | nil =>
      rw [List.map_nil, eq_comm, List.map_eq_nil_iff] at hkeys
      rw [hkeys]
      rfl
  | cons entry entries ih =>
      cases others with
      | nil => cases hkeys
      | cons other others =>
          rw [List.map_cons, List.map_cons] at hkeys hvalues
          injection hkeys with hname hkeys
          rw [List.cons_beq_cons, Bool.and_eq_true] at hvalues
          rw [KeyMap.lookup_cons_ite, KeyMap.lookup_cons_ite, hname]
          split
          · exact hvalues.1
          · exact ih hkeys hvalues.2

namespace Context

theorem get?_beq_of_same {first second : Context} (h : first.same second = true)
    (dimension : String) : (first.get? dimension == second.get? dimension) = true := by
  rw [same, Bool.and_eq_true, beq_iff_eq] at h
  exact lookup_of_beq_values h.1 h.2 dimension

def WrittenAlike (first second : Context) : Prop :=
  ∀ dimension filter other, first.get? dimension = some filter →
    second.get? dimension = some other → filter.WrittenAlike other

theorem key_eq_iff_of_same {first second : Context} (h : first.same second = true) :
    first.key = second.key ↔ first.WrittenAlike second := by
  have hspelling : first.key = second.key ↔ ∀ dimension,
      (first.get? dimension).map Filter.spelling = (second.get? dimension).map Filter.spelling :=
    ⟨get?_spelling_of_key_eq, key_eq_of_get?_spelling⟩
  rw [hspelling]
  exact forall_congr' fun dimension =>
    map_eq_iff_of_beq Filter.spelling_eq_iff_of_same (get?_beq_of_same h dimension)

end Context

namespace Engine

variable {engine : Engine} {query : PivotQuery} {table : List Row} {first second : Row}

theorem exists_group_iff (hfirst : first ∈ engine.baseRows query table)
    (hsecond : second ∈ engine.baseRows query table) :
    (∃ group ∈ engine.groups query (.ofRows table), first ∈ group.2 ∧ second ∈ group.2) ↔
      groupKey query.rows first = groupKey query.rows second := by
  rw [groups_ofRows, groupBy_eq]
  constructor
  · rintro ⟨_, hgroup, hfirst_group, hsecond_group⟩
    obtain ⟨key, _, rfl⟩ := List.mem_map.mp hgroup
    have hfirst_key := of_decide_eq_true (List.mem_filter.mp hfirst_group).2
    have hsecond_key := of_decide_eq_true (List.mem_filter.mp hsecond_group).2
    exact hfirst_key.trans hsecond_key.symm
  · intro hkey
    refine ⟨_, List.mem_map_of_mem (List.mem_eraseDups.mpr (List.mem_map_of_mem hfirst)), ?_, ?_⟩
    · exact List.mem_filter.mpr ⟨hfirst, decide_eq_true rfl⟩
    · exact List.mem_filter.mpr ⟨hsecond, decide_eq_true hkey.symm⟩

end Engine

/-- Equal values have one text, equal contexts one key and rows with equal cells one group just when
no whole number among them equals a double without being one. -/
theorem texts_eq_iff_writtenAlike (engine : Engine) (query : PivotQuery) (table : List Row) :
    (∀ first second : Value, (first == second) = true →
      (first.canonical.toJson.compact = second.canonical.toJson.compact ↔
        first.WrittenAlike second)) ∧
    (∀ first second : Context, first.same second = true →
      (first.key = second.key ↔ first.WrittenAlike second)) ∧
    ∀ first second : Row,
      first ∈ engine.baseRows query table → second ∈ engine.baseRows query table →
      (∀ dimension ∈ query.rows, (first.cell dimension == second.cell dimension) = true) →
      ((∃ group ∈ engine.groups query (.ofRows table), first ∈ group.2 ∧ second ∈ group.2) ↔
        ∀ dimension ∈ query.rows,
          (first.cell dimension).WrittenAlike (second.cell dimension)) := by
  refine ⟨fun first second h => ?_, fun first second h => Context.key_eq_iff_of_same h, ?_⟩
  · rw [← Value.spelling_eq_iff_of_equals h]
    exact ⟨Json.spelling_eq_of_compact, Json.compact_eq_of_spelling⟩
  · intro first second hfirst hsecond hcells
    rw [Engine.exists_group_iff hfirst hsecond, Engine.groupKey_eq_iff_spelling]
    exact forall₂_congr fun dimension hdimension =>
      Value.spelling_eq_iff_of_equals (hcells dimension hdimension)

/-- A whole number that is no double, and the double that it is rounded to. -/
def oddWhole : Value := .int 9007199254740993

def evenDouble : Value := .float 9007199254740992.0

def oddContext : Context := KeyMap.empty.insert "k" (.equals oddWhole)

def evenContext : Context := KeyMap.empty.insert "k" (.equals evenDouble)

def oddRow : Row := KeyMap.empty.insert "k" oddWhole

def evenRow : Row := KeyMap.empty.insert "k" evenDouble

def neighbors : Engine :=
  ⟨⟨.empty, .empty, .empty⟩, KeyMap.ofList [("sales", [oddRow, evenRow])], .standard⟩

def byNumber : PivotQuery := ⟨"sales", ["k"], .empty, [], []⟩

theorem texts_eq_iff_writtenAlike_neighbors :
    (oddWhole == evenDouble) = true ∧
      oddWhole.canonical.toJson.compact ≠ evenDouble.canonical.toJson.compact ∧
      oddContext.same evenContext = true ∧ oddContext.key ≠ evenContext.key ∧
      ¬ ∃ group ∈ neighbors.groups byNumber (.ofRows [oddRow, evenRow]),
        oddRow ∈ group.2 ∧ evenRow ∈ group.2 := by
  have heq : (oddWhole == evenDouble) = true := by decide +kernel
  have hapart : ¬ oddWhole.WrittenAlike evenDouble := by
    change ¬ HasDouble (9007199254740993 : Int64).toInt.natAbs
    decide
  have hadmits : ∀ row : Row, row ∈ [oddRow, evenRow] →
      row ∈ neighbors.baseRows byNumber [oddRow, evenRow] := fun row hrow =>
    Engine.mem_baseRows_iff.mpr ⟨hrow, fun dimension filter hfilter => by cases hfilter⟩
  have hsame : oddContext.same evenContext = true := by decide +kernel
  obtain ⟨htexts, hkeys, hgroups⟩ :=
    texts_eq_iff_writtenAlike neighbors byNumber [oddRow, evenRow]
  refine ⟨heq, fun htext => hapart ?_, hsame, fun hkey => hapart ?_, fun hgroup => hapart ?_⟩
  · exact (htexts oddWhole evenDouble heq).mp htext
  · exact (hkeys _ _ hsame).mp hkey "k" _ _ rfl rfl
  · have hcells : ∀ dimension ∈ byNumber.rows,
        (oddRow.cell dimension == evenRow.cell dimension) = true := by
      intro dimension hdimension
      rw [List.mem_singleton.mp hdimension]
      exact heq
    exact (hgroups oddRow evenRow (hadmits _ (by simp)) (hadmits _ (by simp)) hcells).mp hgroup
      "k" List.mem_cons_self

end MetricLayer
