import MetricLayer.Filter.Expression
import MetricLayer.Proofs.Context.Interchange
import MetricLayer.Proofs.Value.ReadBack

/-!
# Contexts of filter expressions read back

The key of a context that filter expressions give is always read back, value by value. A bound that
is null is lost: it held nothing, and without it the range holds more. A whole double comes back as
its whole number, and another double may come back as a different one. The context that is read
back keeps the same rows just when no filter is changed in such a way.
-/

namespace MetricLayer

open Decimal

namespace Expression

theorem finite_ofChars (token : List Char) : (Value.ofChars token).Finite := by
  unfold Value.ofChars
  split
  · trivial
  · split
    · trivial
    · split
      · rename_i x hfloat
        exact (Option.filter_eq_some_iff.mp hfloat).2
      · split
        · trivial
        · split <;> trivial

theorem finite_readValue (token : List Char) : (readValue token).Finite := by
  unfold readValue
  split
  · trivial
  · exact finite_ofChars _

/-- The filters that expressions give: all of their values are finite. -/
inductive Written : Filter → Prop where
  | equals {value : Value} (h : value.Finite) : Written (.equals value)
  | between {first last : Value} (hfirst : first.Finite) (hlast : last.Finite) :
      Written (.range (.between first last))
  | bounded (bound : Bound) {value : Value} (h : value.Finite) :
      Written (.range (.ofBounds fun other => if other = bound then some value else none))

theorem written_of_readEqual? {raw : List Char} {filter : Filter}
    (h : readEqual? raw = some filter) : Written filter := by
  unfold readEqual? at h
  split at h
  · obtain rfl := Option.some.inj h
    exact .equals (finite_readValue _)
  · dsimp only at h
    split at h
    · cases h
    · obtain rfl := Option.some.inj h
      exact .between (finite_readValue _) (finite_readValue _)

theorem written_of_filter? {operator : Operator} {raw : List Char} {filter : Filter}
    (h : operator.filter? raw = some filter) : Written filter := by
  unfold Operator.filter? at h
  split at h
  · cases h
  · cases operator with
    | equal => exact written_of_readEqual? h
    | atLeast =>
        obtain rfl := Option.some.inj h
        exact .bounded .gte (finite_readValue _)
    | atMost =>
        obtain rfl := Option.some.inj h
        exact .bounded .lte (finite_readValue _)
    | above =>
        obtain rfl := Option.some.inj h
        exact .bounded .gt (finite_readValue _)
    | below =>
        obtain rfl := Option.some.inj h
        exact .bounded .lt (finite_readValue _)

theorem written_of_parse {expression : String} {entry : String × Filter}
    (h : parse expression = .ok entry) : Written entry.2 := by
  unfold parse at h
  split at h
  · cases h
  · split at h
    · cases h
    · rename_i hfilter
      obtain rfl := Except.ok.inj h
      exact written_of_filter? hfilter

theorem written_of_mapM {expressions : List String} {entries : List (String × Filter)}
    (h : expressions.mapM parse = .ok entries) : ∀ entry ∈ entries, Written entry.2 := by
  induction expressions generalizing entries with
  | nil =>
      rw [List.mapM_nil] at h
      obtain rfl := Except.ok.inj h
      exact fun entry hentry => absurd hentry List.not_mem_nil
  | cons expression rest ih =>
      rw [List.mapM_cons] at h
      cases hentry : parse expression with
      | error error =>
          rw [hentry] at h
          cases h
      | ok entry =>
          cases hothers : rest.mapM parse with
          | error error =>
              rw [hentry, hothers] at h
              cases h
          | ok others =>
              rw [hentry, hothers] at h
              obtain rfl := Except.ok.inj h
              intro found hfound
              rcases List.mem_cons.mp hfound with rfl | hfound
              · exact written_of_parse hentry
              · exact ih hothers found hfound

theorem written_of_parseAll {expressions : List String} {context : Context}
    (h : parseAll expressions = .ok context) {dimension : String} {filter : Filter}
    (hfilter : context.get? dimension = some filter) : Written filter := by
  unfold parseAll at h
  cases hentries : expressions.mapM parse with
  | error error =>
      rw [hentries] at h
      cases h
  | ok entries =>
      rw [hentries] at h
      obtain rfl := Except.ok.inj h
      rw [KeyMap.get?_ofList] at hfilter
      exact written_of_mapM hentries _
        (List.mem_reverse.mp (KeyMap.mem_of_lookup_eq_some hfilter))

end Expression

namespace Range

variable {bounds : Range}

def Finite (bounds : Range) : Prop :=
  ∀ bound value, bounds.get? bound = some value → value.Finite

def NullFree (bounds : Range) : Prop :=
  ∀ bound value, bounds.get? bound = some value → value.isNull = false

theorem Finite.rereadAs (h : bounds.Finite) {bound : Bound} {value : Value}
    (hvalue : bounds.get? bound = some value) : Value.RereadAs value value.reread :=
  Value.rereadAs_reread (h bound value hvalue)

def reread (bounds : Range) : Range := bounds.readBack Value.reread

theorem get?_reread (bounds : Range) (bound : Bound) :
    bounds.reread.get? bound = bounds.get? bound >>= fun value =>
      if value.reread.isNull then none else some value.reread :=
  get?_mapBounds _ bounds bound

theorem exists_of_get?_reread {bound : Bound} {other : Value}
    (h : bounds.reread.get? bound = some other) :
    ∃ value, bounds.get? bound = some value ∧ value.reread = other ∧ other.isNull = false := by
  rw [get?_reread] at h
  obtain ⟨value, hvalue, h⟩ := Option.bind_eq_some_iff.mp h
  split at h
  · cases h
  · rename_i hnull
    obtain rfl := Option.some.inj h
    exact ⟨value, hvalue, rfl, Bool.eq_false_iff.mpr hnull⟩

theorem NullFree.get?_reread (h : bounds.NullFree) (hfinite : bounds.Finite) (bound : Bound) :
    bounds.reread.get? bound = (bounds.get? bound).map Value.reread := by
  rw [Range.get?_reread]
  cases hvalue : bounds.get? bound with
  | none => rfl
  | some value =>
      have hnull : value.reread.isNull = false := by
        rw [(hfinite.rereadAs hvalue).isNull_eq]
        exact h bound value hvalue
      rw [Option.bind_eq_bind, Option.bind_some, hnull, if_neg Bool.false_ne_true]
      rfl

/-- Cells in the same order with the values and with what these are read back as. -/
theorem NullFree.holds_reread (h : bounds.NullFree) (hfinite : bounds.Finite) {cell : Value}
    (hcompare : ∀ bound value, bounds.get? bound = some value →
      cell.compare? value = cell.compare? value.reread) :
    bounds.holds cell = bounds.reread.holds cell := by
  refine holds_eq_of_compare? (fun bound => ?_) fun bound value other hvalue hother => ?_
  · rw [h.get?_reread hfinite, Option.isSome_map]
  · rw [h.get?_reread hfinite, hvalue, Option.map_some] at hother
    rw [hcompare bound value hvalue, Option.some.inj hother]

theorem holds_eq_false_of_null {bound : Bound} {value : Value} (h : bounds.get? bound = some value)
    (hnull : value.isNull = true) (cell : Value) : bounds.holds cell = false := by
  refine Bool.eq_false_iff.mpr fun hholds => ?_
  have hbound := (holds_iff bounds cell).mp hholds bound value h
  rw [Value.isNull_iff.mp hnull, Value.compare?_null] at hbound
  cases hbound

/-- A range whose only bound was null holds everything. -/
theorem holds_reread_bounded {value : Value} (h : value.Finite) (hnull : value.isNull = true)
    (bound : Bound) (cell : Value) :
    (ofBounds fun other => if other = bound then some value else none).reread.holds cell = true := by
  refine (holds_iff _ _).mpr fun held kept hkept => ?_
  obtain ⟨written, hwritten, rfl, hkept_null⟩ := exists_of_get?_reread hkept
  rw [get?_ofBounds] at hwritten
  split at hwritten
  · obtain rfl := Option.some.inj hwritten
    rw [(Value.rereadAs_reread h).isNull_eq, hnull] at hkept_null
    cases hkept_null
  · cases hwritten

/-- With one end null, the end that is left over, if there is one, is in the range itself. -/
theorem exists_holds_reread_between {first last : Value} (hfirst : first.Finite)
    (hlast : last.Finite) (hnull : first.isNull = true ∨ last.isNull = true) :
    ∃ cell, (between first last).reread.holds cell = true := by
  have hreads := Value.rereadAs_reread hfirst
  have hreads' := Value.rereadAs_reread hlast
  refine ⟨if first.isNull then last.reread else first.reread,
    (holds_iff _ _).mpr fun held kept hkept => ?_⟩
  obtain ⟨written, hwritten, rfl, hkept_null⟩ := exists_of_get?_reread hkept
  cases held with
  | start =>
      obtain rfl : first = written := Option.some.inj hwritten
      have hfirst_null := hreads.isNull_eq.symm.trans hkept_null
      rw [hfirst_null, if_neg Bool.false_ne_true, hreads.compare?_self hkept_null]
      rfl
  | stop =>
      obtain rfl : last = written := Option.some.inj hwritten
      have hlast_null := hreads'.isNull_eq.symm.trans hkept_null
      have hfirst_null : first.isNull = true :=
        hnull.resolve_right (Bool.eq_false_iff.mp hlast_null)
      rw [hfirst_null, if_pos rfl, hreads'.compare?_self hkept_null]
      rfl
  | _ => cases hwritten

/-- A range that has lost a null bound holds some cell: it has one bound left at most. -/
theorem exists_holds_reread (h : Expression.Written (.range bounds)) (hnull : ¬ bounds.NullFree) :
    ∃ cell, bounds.reread.holds cell = true := by
  unfold NullFree at hnull
  push Not at hnull
  obtain ⟨lost, value, hlost, hvalue⟩ := hnull
  rw [Ne, Bool.not_eq_false] at hvalue
  cases h with
  | bounded bound hother =>
      rw [get?_ofBounds] at hlost
      split at hlost
      · obtain rfl := Option.some.inj hlost
        exact ⟨.null, holds_reread_bounded hother hvalue bound .null⟩
      · cases hlost
  | between hfirst hlast =>
      refine exists_holds_reread_between hfirst hlast ?_
      cases lost with
      | start => exact .inl (Option.some.inj hlost ▸ hvalue)
      | stop => exact .inr (Option.some.inj hlost ▸ hvalue)
      | _ => cases hlost

end Range

namespace Filter

variable {filter : Filter}

def Finite : Filter → Prop
  | equals value => value.Finite
  | range bounds => bounds.Finite

def NullFree : Filter → Prop
  | equals _ => True
  | range bounds => bounds.NullFree

/-- What the text of the filter in a key is read as. -/
def reread (filter : Filter) : Filter := filter.readBack Value.reread

/-- No bound is null, and what is read back can stand in for the filter. -/
def Survives (filter : Filter) : Prop := filter.NullFree ∧ filter.Interchangeable filter.reread

/-- No bound is null, and all values are read back without loss. -/
def Plain : Filter → Prop
  | equals value => value.Plain
  | range bounds => bounds.NullFree ∧
      ∀ bound value, bounds.get? bound = some value → value.Plain

theorem finite_of_written (h : Expression.Written filter) : filter.Finite := by
  cases h with
  | equals hvalue => exact hvalue
  | between hfirst hlast =>
      intro bound value hvalue
      cases bound with
      | start => exact Option.some.inj hvalue ▸ hfirst
      | stop => exact Option.some.inj hvalue ▸ hlast
      | _ => cases hvalue
  | bounded bound hvalue =>
      intro other value hother
      rw [Range.get?_ofBounds] at hother
      split at hother
      · exact Option.some.inj hother ▸ hvalue
      · cases hother

theorem Finite.readsWith (h : filter.Finite) : filter.ReadsWith Value.reread := by
  cases filter with
  | equals value => exact Value.readsAs_reread h
  | range bounds => exact fun bound value hvalue => Value.readsAs_reread (h bound value hvalue)

/-- A filter and what it is read back as keep the same cells just when the filter survives. -/
theorem keeps_reread_iff (h : Expression.Written filter) :
    (∀ cell, filter.keeps cell = filter.reread.keeps cell) ↔ filter.Survives := by
  have hfinite := finite_of_written h
  cases filter with
  | equals value =>
      rw [Survives, NullFree, true_and]
      exact (Value.rereadAs_reread hfinite).keeps_eq_iff
  | range bounds =>
      constructor
      · intro hkeeps
        refine ⟨fun bound value hvalue => ?_, fun number _ => hkeeps number⟩
        by_contra hnull
        rw [Bool.not_eq_false] at hnull
        obtain ⟨cell, hcell⟩ := Range.exists_holds_reread h fun hfree =>
          absurd hnull (Bool.eq_false_iff.mp (hfree bound value hvalue))
        have hlost := (hkeeps cell).trans hcell
        rw [keeps_range, Range.holds_eq_false_of_null hvalue hnull] at hlost
        cases hlost
      · rintro ⟨hfree, hnumbers⟩ cell
        -- Reading back changes numbers only, so no other cell tells them apart.
        cases hcell : cell.number? with
        | some number => exact hnumbers cell (hcell ▸ rfl)
        | none =>
            refine Range.NullFree.holds_reread hfree hfinite fun bound value hvalue => ?_
            exact (Range.Finite.rereadAs hfinite hvalue).compare?_eq_of_no_number hcell

theorem Plain.survives (h : filter.Plain) (hfinite : filter.Finite) : filter.Survives := by
  cases filter with
  | equals value => exact ⟨trivial, Value.Plain.alike h (Value.rereadAs_reread hfinite)⟩
  | range bounds =>
      refine ⟨h.1, fun number _ => h.1.holds_reread hfinite fun bound value hvalue => ?_⟩
      exact (h.2 bound value hvalue).compare?_eq (Range.Finite.rereadAs hfinite hvalue) number

end Filter

namespace Context

/-- What the key of the context is read as. -/
def reread (context : Context) : Context := context.map Filter.reread

theorem isSome_get?_reread (context : Context) (dimension : String) :
    (context.get? dimension).isSome = (context.reread.get? dimension).isSome := by
  rw [reread, KeyMap.get?_map, Option.isSome_map]

/-- The key of a context that expressions give is always read back. What is read back keeps the
same rows, whatever the rows and the grain, if all filters are plain, and it does so just when all
filters survive. -/
theorem ofKey?_key_of_parseAll {expressions : List String} {context : Context}
    (h : Expression.parseAll expressions = .ok context) :
    ofKey? context.key = some context.reread ∧
      ((∀ dimension filter, context.get? dimension = some filter → filter.Plain) →
        context.SameRows context.reread) ∧
      (context.SameRows context.reread ↔
        ∀ dimension filter, context.get? dimension = some filter → filter.Survives) := by
  have hwritten : ∀ {dimension filter}, context.get? dimension = some filter →
      Expression.Written filter := fun hfilter => Expression.written_of_parseAll h hfilter
  have hreread : ∀ {dimension filter}, context.get? dimension = some filter →
      context.reread.get? dimension = some filter.reread := by
    intro dimension filter hfilter
    rw [reread, KeyMap.get?_map, hfilter, Option.map_some]
  have hiff : context.SameRows context.reread ↔
      ∀ dimension filter, context.get? dimension = some filter → filter.Survives := by
    rw [sameRows_iff_keeps_of_isSome (isSome_get?_reread context)]
    constructor
    · intro hkeeps dimension filter hfilter
      exact (Filter.keeps_reread_iff (hwritten hfilter)).mp
        (hkeeps dimension filter filter.reread hfilter (hreread hfilter))
    · intro hsurvive dimension filter other hfilter hother
      obtain rfl := Option.some.inj ((hreread hfilter).symm.trans hother)
      exact (Filter.keeps_reread_iff (hwritten hfilter)).mpr (hsurvive dimension filter hfilter)
  refine ⟨ofKey?_key fun dimension filter hfilter => ?_, fun hplain => hiff.mpr ?_, hiff⟩
  · exact (Filter.finite_of_written (hwritten hfilter)).readsWith
  · intro dimension filter hfilter
    exact (hplain dimension filter hfilter).survives (Filter.finite_of_written (hwritten hfilter))

/-- From some month on, which is not given. -/
def openMonth : Context := KeyMap.empty.insert "month" (.range (.atLeast .null))

/-- The bound is null, and it is lost. -/
theorem ofKey?_key_openMonth : Expression.parseAll ["month>=null"] = .ok openMonth ∧
    ofKey? openMonth.key = some openMonth.reread ∧ ¬ openMonth.SameRows openMonth.reread := by
  have hparse : Expression.parseAll ["month>=null"] = .ok openMonth := by rfl
  obtain ⟨hread, _, hiff⟩ := ofKey?_key_of_parseAll hparse
  refine ⟨hparse, hread, fun hsame => ?_⟩
  obtain ⟨hfree, _⟩ := hiff.mp hsame "month" _ rfl
  cases hfree .gte .null rfl

end Context

end MetricLayer
