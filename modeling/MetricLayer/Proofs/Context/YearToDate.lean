import MetricLayer.Proofs.Context.Unbounded
import MetricLayer.Proofs.Value.Kinds

/-!
# Periods up to their end

Year-to-date opens a period towards the past and keeps its end. A range may have up to three upper
bounds, and only one of them is kept: where all of its bounds are of one kind, that one stands for
all of them. Bounds of several kinds have no tightest one, but whichever is kept, no row is lost.
-/

namespace MetricLayer

namespace Range

def OfKind (range : Range) (kind : ValueKind) : Prop :=
  ∀ bound value, range.get? bound = some value → value.OfKind kind

def UpTo (range : Range) (cell : Value) : Prop :=
  (∀ stop, range.stop = some stop → cell.AtMost stop) ∧
    (∀ last, range.lte = some last → cell.AtMost last) ∧
      ∀ limit, range.lt = some limit → cell.Below limit

def HasEnd (range : Range) : Prop :=
  range.stop.isSome ∨ range.lte.isSome ∨ range.lt.isSome

end Range

namespace Filter

def OfKind : Filter → ValueKind → Prop
  | equals value, kind => value.OfKind kind
  | range bounds, kind => bounds.OfKind kind

/-- The cell is not after what the filter asks for. -/
def UpTo : Filter → Value → Prop
  | equals last, cell => cell.AtMost last
  | range bounds, cell => bounds.UpTo cell

/-- A filter that asks for one value ends there. -/
def HasEnd : Filter → Prop
  | equals _ => True
  | range bounds => bounds.HasEnd

end Filter

namespace Range

variable {range upper : Range} {kind : ValueKind} {cell limit : Value}

theorem holds_atMost (limit cell : Value) :
    (atMost limit).holds cell = (cell.compare? limit).any Bound.lte.accepts :=
  Bool.and_true _

theorem holds_below (limit cell : Value) :
    (below limit).holds cell = (cell.compare? limit).any Bound.lt.accepts :=
  Bool.and_true _

theorem holds_atMost_iff (hcell : cell.OfKind kind) (hlimit : limit.OfKind kind) :
    (atMost limit).holds cell = true ↔ cell.AtMost limit := by
  rw [holds_atMost, Value.atMost_iff hcell hlimit]
  rcases Value.compare?_cases hcell hlimit with ⟨horder, h⟩ | ⟨horder, rfl⟩ | ⟨horder, h⟩
  · rw [horder]
    exact iff_of_true rfl h.asymm
  · rw [horder]
    exact iff_of_true rfl (Value.not_below_self cell)
  · rw [horder]
    exact iff_of_false Bool.false_ne_true (not_not_intro h)

theorem holds_below_iff (hcell : cell.OfKind kind) (hlimit : limit.OfKind kind) :
    (below limit).holds cell = true ↔ cell.Below limit := by
  rw [holds_below]
  rcases Value.compare?_cases hcell hlimit with ⟨horder, h⟩ | ⟨horder, rfl⟩ | ⟨horder, h⟩
  · rw [horder]
    exact iff_of_true rfl h
  · rw [horder]
    exact iff_of_false Bool.false_ne_true (Value.not_below_self cell)
  · rw [horder]
    exact iff_of_false Bool.false_ne_true h.asymm

theorem inclusiveUpper?_eq_none (h : range.inclusiveUpper? = none) :
    range.stop = none ∧ range.lte = none := by
  unfold inclusiveUpper? at h
  split at h
  · split at h <;> cases h
  · cases h
  · rename_i hstop
    exact ⟨hstop, h⟩

/-- The bound that is kept is one of the two. -/
theorem inclusiveUpper?_eq_some {inclusive : Value} (h : range.inclusiveUpper? = some inclusive) :
    range.stop = some inclusive ∨ range.lte = some inclusive := by
  unfold inclusiveUpper? at h
  split at h
  · rename_i stop last hstop hlte
    split at h
    · exact .inr (hlte.trans h)
    · exact .inl (hstop.trans h)
  · rename_i stop hstop _
    exact .inl (hstop.trans h)
  · exact .inr h

theorem OfKind.inclusiveUpper? (hrange : range.OfKind kind) {inclusive : Value}
    (h : range.inclusiveUpper? = some inclusive) : inclusive.OfKind kind := by
  rcases inclusiveUpper?_eq_some h with hstop | hlte
  · exact hrange .stop inclusive hstop
  · exact hrange .lte inclusive hlte

/-- The inclusive bound that is kept stands for both. -/
theorem OfKind.atMost_inclusiveUpper?_iff (hrange : range.OfKind kind) {inclusive : Value}
    (h : range.inclusiveUpper? = some inclusive) :
    cell.AtMost inclusive ↔
      (∀ stop, range.stop = some stop → cell.AtMost stop) ∧
        ∀ last, range.lte = some last → cell.AtMost last := by
  unfold Range.inclusiveUpper? at h
  split at h
  · rename_i stop last hstop hlte
    have hkinds : last.OfKind kind ∧ stop.OfKind kind :=
      ⟨hrange .lte last hlte, hrange .stop stop hstop⟩
    simp only [hstop, hlte, Option.some.injEq, forall_eq']
    split at h
    · rename_i hless
      obtain rfl := Option.some.inj h
      have hbelow : last.Below stop := by
        rcases Value.compare?_cases hkinds.1 hkinds.2 with ⟨_, h⟩ | ⟨horder, _⟩ | ⟨horder, _⟩
        · exact h
        · rw [horder] at hless
          cases hless
        · rw [horder] at hless
          cases hless
      exact ⟨fun hcell => ⟨hcell.trans hbelow.atMost, hcell⟩, And.right⟩
    · rename_i hless
      obtain rfl := Option.some.inj h
      have hatMost : stop.AtMost last := by
        rw [Value.atMost_iff hkinds.2 hkinds.1]
        rcases Value.compare?_cases hkinds.1 hkinds.2 with ⟨horder, _⟩ | ⟨_, heq⟩ | ⟨_, h⟩
        · exact absurd horder hless
        · rw [heq]
          exact Value.not_below_self _
        · exact h.asymm
      exact ⟨fun hcell => ⟨hcell, hcell.trans hatMost⟩, And.left⟩
  · rename_i stop hstop hlte
    obtain rfl := Option.some.inj h
    simp [hstop, hlte]
  · rename_i hstop
    simp [hstop, h]

theorem exists_tightestUpper? (h : range.HasEnd) :
    ∃ upper, range.tightestUpper? = some upper := by
  unfold tightestUpper?
  split
  · split <;> exact ⟨_, rfl⟩
  · exact ⟨_, rfl⟩
  · exact ⟨_, rfl⟩
  · rename_i hinclusive hlt
    obtain ⟨hstop, hlte⟩ := inclusiveUpper?_eq_none hinclusive
    simp [HasEnd, hstop, hlte, hlt] at h

/-- Among bounds of one kind the tightest one stands for all. -/
theorem OfKind.holds_tightestUpper?_iff (hrange : range.OfKind kind) (hcell : cell.OfKind kind)
    (h : range.tightestUpper? = some upper) : upper.holds cell = true ↔ range.UpTo cell := by
  rw [UpTo, ← and_assoc]
  unfold Range.tightestUpper? at h
  split at h
  · rename_i inclusive exclusive hinclusive hlt
    have hkind : inclusive.OfKind kind := hrange.inclusiveUpper? hinclusive
    have hkind' : exclusive.OfKind kind := hrange .lt exclusive hlt
    have hiff : isAtOrBelow exclusive inclusive = true ↔ exclusive.AtMost inclusive := by
      rw [← holds_atMost_iff hkind' hkind, holds_atMost]
      rfl
    rw [← hrange.atMost_inclusiveUpper?_iff hinclusive, hlt]
    simp only [Option.some.injEq, forall_eq']
    split at h
    · rename_i hbelow
      obtain rfl := Option.some.inj h
      rw [holds_below_iff hcell hkind']
      exact ⟨fun hless => ⟨hless.atMost.trans (hiff.mp hbelow), hless⟩, And.right⟩
    · rename_i hbelow
      obtain rfl := Option.some.inj h
      rw [hiff, Value.atMost_iff hkind' hkind, not_not] at hbelow
      rw [holds_atMost_iff hcell hkind]
      exact ⟨fun hmost => ⟨hmost, hmost.trans_below hbelow⟩, And.left⟩
  · rename_i inclusive hinclusive hlt
    obtain rfl := Option.some.inj h
    rw [← hrange.atMost_inclusiveUpper?_iff hinclusive, hlt,
      holds_atMost_iff hcell (hrange.inclusiveUpper? hinclusive)]
    simp
  · rename_i exclusive hinclusive hlt
    obtain rfl := Option.some.inj h
    obtain ⟨hstop, hlte⟩ := inclusiveUpper?_eq_none hinclusive
    rw [hstop, hlte, hlt, holds_below_iff hcell (hrange .lt exclusive hlt)]
    simp
  · cases h

/-- Whichever bound is kept, it is a bound of the range, so it holds all cells that the range
holds. -/
theorem holds_of_tightestUpper? (h : range.tightestUpper? = some upper)
    (hcell : range.holds cell = true) : upper.holds cell = true := by
  rw [holds_iff] at hcell
  have hinclusive : ∀ inclusive, range.inclusiveUpper? = some inclusive →
      (atMost inclusive).holds cell = true := by
    intro inclusive hkept
    rw [holds_atMost]
    rcases inclusiveUpper?_eq_some hkept with hstop | hlte
    · exact hcell .stop inclusive hstop
    · exact hcell .lte inclusive hlte
  have hexclusive : ∀ exclusive, range.lt = some exclusive →
      (below exclusive).holds cell = true := by
    intro exclusive hlt
    rw [holds_below]
    exact hcell .lt exclusive hlt
  unfold tightestUpper? at h
  split at h
  · rename_i inclusive exclusive hkept hlt
    split at h
    · obtain rfl := Option.some.inj h
      exact hexclusive exclusive hlt
    · obtain rfl := Option.some.inj h
      exact hinclusive inclusive hkept
  · rename_i inclusive hkept _
    obtain rfl := Option.some.inj h
    exact hinclusive inclusive hkept
  · rename_i exclusive _ hlt
    obtain rfl := Option.some.inj h
    exact hexclusive exclusive hlt
  · cases h

end Range

theorem Value.isNull_of_ofKind {value : Value} {kind : ValueKind} (h : value.OfKind kind) :
    value.isNull = false := by
  cases value with
  | null => exact h.elim
  | _ => rfl

namespace Filter

variable {filter : Filter} {upper : Range} {kind : ValueKind} {cell : Value}

theorem exists_upTo? (hkind : filter.OfKind kind) (h : filter.HasEnd) :
    ∃ upper, filter.upTo? = some upper := by
  cases filter with
  | equals value => exact ⟨.atMost value, if_neg (by simp [Value.isNull_of_ofKind hkind])⟩
  | range bounds => exact Range.exists_tightestUpper? h

theorem holds_upTo?_iff (hkind : filter.OfKind kind) (hcell : cell.OfKind kind)
    (h : filter.upTo? = some upper) : upper.holds cell = true ↔ filter.UpTo cell := by
  cases filter with
  | equals value =>
      change (if value.isNull then none else some (Range.atMost value)) = _ at h
      rw [Value.isNull_of_ofKind hkind] at h
      obtain rfl := Option.some.inj h
      exact Range.holds_atMost_iff hcell hkind
  | range bounds => exact Range.OfKind.holds_tightestUpper?_iff hkind hcell h

theorem holds_upTo?_of_keeps (h : filter.upTo? = some upper) (hcell : filter.keeps cell = true) :
    upper.holds cell = true := by
  cases filter with
  | equals value =>
      change (if value.isNull then none else some (Range.atMost value)) = _ at h
      split at h
      · cases h
      · rename_i hnull
        obtain rfl := Option.some.inj h
        have hnull : value.isNull = false := Bool.eq_false_iff.mpr hnull
        have hequal : (cell == value) = true := by
          rw [keeps, show (equals value).isNull = value.isNull from rfl, hnull, Bool.false_or]
            at hcell
          exact hcell
        rw [Range.holds_atMost, (Value.equals_iff_compare? cell hnull).mp hequal]
        rfl
  | range bounds => exact Range.holds_of_tightestUpper? h hcell

end Filter

namespace Context

theorem Admits.yearToDate {context : Context} {grain : List String} {row : Row}
    (h : context.Admits grain row) (keys : TimeKeys) :
    (yearToDate keys context).Admits grain row := by
  rcases yearToDate_cases keys context with hsame | ⟨filter, upper, hfilter, hupper, hchanged⟩
  · rwa [hsame]
  · rw [admits_iff] at h
    rw [hchanged, admits_iff]
    intro dimension held hheld hgrain
    rw [withRange, get?_withFilter] at hheld
    split at hheld
    · rename_i hdimension
      obtain rfl := Option.some.inj hheld
      subst hdimension
      exact Filter.holds_upTo?_of_keeps hupper (h keys.period filter hfilter hgrain)
    · exact h dimension held hheld hgrain

/-- **Year-to-date keeps the end of a period.** Under a year that is constrained, a period all of
whose values are of one kind becomes a range that holds just the cells of that kind up to its end:
those at or below the one value it asked for, or within all upper bounds that it had. Whatever the
kinds, year-to-date drops no row that the context keeps. -/
theorem yearToDate_keeps_end (keys : TimeKeys) {context : Context} {year : Filter}
    (hyear : context.get? keys.year = some year) (hpresent : year.isNull = false) :
    (∀ kind period, context.get? keys.period = some period → period.OfKind kind → period.HasEnd →
      ∃ upper, (yearToDate keys context).get? keys.period = some upper ∧
        ∀ cell : Value, cell.OfKind kind → (upper.holds cell = true ↔ period.UpTo cell)) ∧
      ∀ (rows : RowSet) (grain : List String),
        (rows.narrowToGrain context grain).rows.Sublist
          (rows.narrowToGrain (yearToDate keys context) grain).rows := by
  constructor
  · intro kind period hperiod hkind hend
    obtain ⟨upper, hupper⟩ := Filter.exists_upTo? hkind hend
    have hconstrains : context.constrains keys.year = true := by
      rw [constrains, hyear, Option.any_some, hpresent]
      rfl
    refine ⟨.range upper, ?_, fun cell hcell => Filter.holds_upTo?_iff hkind hcell hupper⟩
    rw [yearToDate_of_constrained hconstrains hperiod hupper, withRange, get?_withFilter,
      if_pos rfl]
  · intro rows grain
    rw [RowSet.rows_narrowToGrain, RowSet.rows_narrowToGrain]
    refine List.monotone_filter_right _ fun row hrow => ?_
    rw [decide_eq_true_iff] at hrow ⊢
    exact hrow.yearToDate keys

/-- From March on, with three ends of which the strict one comes first. -/
def fromMarch : Range := ⟨some (.int 3), some (.int 9), none, some (.int 7), none, some (.int 7)⟩

def springOf2024 : Context :=
  (KeyMap.empty.insert "year" (.equals (.int 2024))).insert "month" (.range fromMarch)

theorem ofKind_fromMarch : fromMarch.OfKind .int := by
  intro bound value hvalue
  cases bound <;> cases hvalue <;> trivial

theorem upTo_fromMarch_iff (month : Int64) : fromMarch.UpTo (.int month) ↔ month < 7 := by
  have hlast : month < 7 → month ≤ 9 ∧ month ≤ 7 := by
    rw [Int64.lt_iff_toInt_lt, Int64.le_iff_toInt_le, Int64.le_iff_toInt_le]
    intro h
    exact ⟨h.le.trans (by decide), h.le⟩
  simp only [Range.UpTo, fromMarch, Option.some.injEq, forall_eq', Value.AtMost, Value.Below]
  exact ⟨fun h => h.2.2, fun h => ⟨(hlast h).1, (hlast h).2, h⟩⟩

/-- January comes in and July stays out. -/
theorem yearToDate_keeps_end_springOf2024 :
    (∃ upper, (yearToDate .standard springOf2024).get? "month" = some upper ∧
        ∀ month, upper.holds (.int month) = true ↔ month < 7) ∧
      ∀ (rows : RowSet) (grain : List String),
        (rows.narrowToGrain springOf2024 grain).rows.Sublist
          (rows.narrowToGrain (yearToDate .standard springOf2024) grain).rows := by
  obtain ⟨hperiod, hrows⟩ := yearToDate_keeps_end .standard
    (show springOf2024.get? "year" = some (.equals (.int 2024)) from rfl) rfl
  obtain ⟨upper, hupper, hcells⟩ :=
    hperiod .int (.range fromMarch) rfl ofKind_fromMarch (.inl rfl)
  refine ⟨⟨upper, hupper, fun month => ?_⟩, hrows⟩
  rw [hcells (.int month) trivial]
  exact upTo_fromMarch_iff month

end Context

end MetricLayer
