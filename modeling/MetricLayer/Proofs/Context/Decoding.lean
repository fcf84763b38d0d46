import MetricLayer.Proofs.Context.Key
import MetricLayer.Proofs.Json.Documents
import MetricLayer.Proofs.Json.Magnitudes
import MetricLayer.Proofs.KeyMap.Lookup
import MetricLayer.Proofs.Value.Alike

/-!
# Decoding contexts

What a JSON text has to spell to be a context, and which context it is then. The members of the
text are dimensions with their filters: a primitive asks for one value, and an object bounds a
range, whatever else it holds.
-/

namespace MetricLayer

open Json (Numeral Token Document)

namespace Json.Numeral

def double? (numeral : Numeral) : Option Float :=
  numeral.value? >>= fun
    | .int n => some (Float.ofInt n)
    | .float x => some x
    | _ => none

/-- A whole number of 64 bits stays one, and any other number is a double. -/
def Denotes (numeral : Numeral) (value : Value) : Prop :=
  (∃ n : Int64, numeral.integer? = some n.toInt ∧ value = .int n) ∨
    (∀ n : Int64, numeral.integer? ≠ some n.toInt) ∧
      ∃ x, numeral.double? = some x ∧ value = .float x

variable {numeral : Numeral} {tree : Json}

theorem exists_ofJson? (hformed : numeral.WellFormed) (htree : numeral.value? = some tree) :
    ∃ value, Value.ofJson? tree = some value ∧ ∀ other, numeral.Denotes other ↔ value = other := by
  rcases value?_cases hformed with ⟨n, hinteger, hvalue⟩ | ⟨hinteger, hvalue⟩
  · obtain rfl := Option.some.inj (hvalue.symm.trans htree)
    refine ⟨Value.ofInt n, rfl, fun other => ?_⟩
    rw [Denotes, hinteger, double?, hvalue, Value.ofInt]
    cases hfits : Value.int64? n with
    | some whole =>
        obtain rfl := Value.toInt_of_int64? hfits
        simp [Int64.toInt_inj, eq_comm]
    | none =>
        have hwide : ∀ whole : Int64, n ≠ whole.toInt := by
          rintro whole rfl
          rw [Value.int64?_toInt] at hfits
          cases hfits
        simp [hwide, eq_comm]
  · rw [hvalue] at htree
    obtain ⟨x, hx, rfl⟩ := Option.map_eq_some_iff.mp htree
    refine ⟨.float x, rfl, fun other => ?_⟩
    rw [Denotes, double?, hvalue, hx]
    simp [hinteger, eq_comm]

end Json.Numeral

def boundMembers : List (String × Bound) :=
  [("from", .start), ("to", .stop), ("gte", .gte), ("lte", .lte), ("gt", .gt), ("lt", .lt)]

theorem mem_boundMembers_iff {entry : String × Bound} :
    entry ∈ boundMembers ↔ entry.1 = entry.2.name := by
  obtain ⟨name, bound⟩ := entry
  cases bound <;> simp [boundMembers, Bound.name]

theorem forall_boundMembers_iff {p : String × Bound → Prop} :
    (∀ entry ∈ boundMembers, p entry) ↔ ∀ bound : Bound, p (bound.name, bound) := by
  constructor
  · exact fun h bound => h _ (mem_boundMembers_iff.mpr rfl)
  · rintro h ⟨name, bound⟩ hentry
    obtain rfl : name = bound.name := mem_boundMembers_iff.mp hentry
    exact h bound

namespace Json.Document

/-- The value that a primitive denotes. -/
def DenotesValue : Document → Value → Prop
  | null, value => value = .null
  | bool truth, value => value = .bool truth
  | number numeral _, value => numeral.Denotes value
  | string token, value =>
      ∃ content, token.content? = some content ∧ value = .string (String.ofList content)
  | array _, _ | object _, _ => False

/-- A primitive, or an object that gives no bound twice and a primitive for each. -/
def IsFilter : Document → Prop
  | object members => ∀ entry ∈ boundMembers,
      (named entry.1 members).length ≤ 1 ∧ ∀ held ∈ named entry.1 members, held.IsPrimitive
  | document => document.IsPrimitive

/-- A primitive asks for its value. An object bounds a range by the bounds that are not null. -/
def DenotesFilter : Document → Filter → Prop
  | object members, .range range => ∀ entry ∈ boundMembers, ∀ value,
      range.get? entry.2 = some value ↔
        value ≠ .null ∧ ∃ held ∈ named entry.1 members, held.DenotesValue value
  | document, .equals value => document.DenotesValue value
  | _, .range _ => False

/-- An object whose members are filters. -/
def IsContext : Document → Prop
  | object members => ∀ member ∈ members, member.2.IsFilter
  | _ => False

variable {document : Document} {tree : Json} {levels : Nat} {members : List (Token × Document)}
  {entries : List (String × Json)}

theorem exists_ofJson?_of_primitive (hprimitive : document.IsPrimitive)
    (htree : document.read? levels = some tree) :
    ∃ value, Value.ofJson? tree = some value ∧
      ∀ other, document.DenotesValue other ↔ value = other := by
  cases document with
  | null =>
      rw [read?] at htree
      obtain rfl := Option.some.inj htree
      exact ⟨.null, rfl, fun _ => eq_comm⟩
  | bool truth =>
      rw [read?] at htree
      obtain rfl := Option.some.inj htree
      exact ⟨.bool truth, rfl, fun _ => eq_comm⟩
  | number numeral hformed =>
      rw [read?] at htree
      exact Numeral.exists_ofJson? hformed htree
  | string token =>
      rw [read?] at htree
      obtain ⟨content, hcontent, rfl⟩ := Option.map_eq_some_iff.mp htree
      refine ⟨.string (String.ofList content), rfl, fun other => ?_⟩
      simp [DenotesValue, hcontent, eq_comm]
  | array items => exact hprimitive.elim
  | object members => exact hprimitive.elim

theorem ofJson?_of_not_primitive (hprimitive : ¬ document.IsPrimitive)
    (htree : document.read? levels = some tree) :
    Value.ofJson? tree = none ∧ ∀ other, ¬ document.DenotesValue other := by
  cases document with
  | array items =>
      obtain ⟨trees, rfl⟩ := exists_of_read?_array htree
      exact ⟨rfl, fun _ => id⟩
  | object members =>
      obtain ⟨_, entries, rfl, _⟩ := exists_of_read?_object htree
      exact ⟨rfl, fun _ => id⟩
  | _ => exact absurd trivial hprimitive

theorem ofJson?_eq_some_iff (htree : document.read? levels = some tree) (value : Value) :
    Value.ofJson? tree = some value ↔ document.DenotesValue value := by
  by_cases hprimitive : document.IsPrimitive
  · obtain ⟨held, hheld, hdenotes⟩ := exists_ofJson?_of_primitive hprimitive htree
    rw [hheld, hdenotes, Option.some_inj]
  · obtain ⟨hnone, hdenotes⟩ := ofJson?_of_not_primitive hprimitive htree
    simp [hnone, hdenotes]

theorem exists_ofJson?_iff (htree : document.read? levels = some tree) :
    (∃ value, Value.ofJson? tree = some value) ↔ document.IsPrimitive := by
  by_cases hprimitive : document.IsPrimitive
  · obtain ⟨value, hvalue, _⟩ := exists_ofJson?_of_primitive hprimitive htree
    simp [hprimitive, hvalue]
  · simp [hprimitive, (ofJson?_of_not_primitive hprimitive htree).1]

section Members

variable (hmembers : Alongside (fun held tree => held.read? levels = some tree) members entries)

include hmembers

theorem exists_boundOfMembers?_iff (bound : Bound) :
    (∃ limit, Range.boundOfMembers? entries bound = some limit) ↔
      (named bound.name members).length ≤ 1 ∧
        ∀ held ∈ named bound.name members, held.IsPrimitive := by
  have hnamed := hmembers.named bound.name
  rw [Range.boundOfMembers?]
  generalize named bound.name members = helds at hnamed
  generalize entries.filter (fun entry => entry.1 == bound.name) = found at hnamed
  match hnamed with
  | .nil => simp
  | .cons (b := (_, tree)) htree .nil => simp [← exists_ofJson?_iff htree]
  | .cons _ (.cons _ _) => simp

theorem boundOfMembers?_eq_some {bound : Bound} {limit : Option Value}
    (h : Range.boundOfMembers? entries bound = some limit) (value : Value) :
    limit = some value ↔
      value ≠ .null ∧ ∃ held ∈ named bound.name members, held.DenotesValue value := by
  have hnamed := hmembers.named bound.name
  rw [Range.boundOfMembers?] at h
  generalize named bound.name members = helds at hnamed
  generalize entries.filter (fun entry => entry.1 == bound.name) = found at hnamed h
  match hnamed with
  | .nil =>
      obtain rfl := Option.some.inj h
      simp
  | .cons (a := held) (b := (_, tree)) htree .nil =>
      obtain ⟨given, hgiven, rfl⟩ := Option.map_eq_some_iff.mp h
      have hdenotes : held.DenotesValue value ↔ given = value := by
        rw [← ofJson?_eq_some_iff htree, hgiven, Option.some_inj]
      simp only [List.mem_singleton, exists_eq_left, hdenotes]
      by_cases hnull : given = .null
      · subst hnull
        simpa [Value.isNull] using fun hne heq => hne heq.symm
      · rw [if_neg (mt Value.isNull_iff.mp hnull), Option.some_inj]
        exact ⟨fun heq => ⟨heq ▸ hnull, heq⟩, And.right⟩
  | .cons _ (.cons _ _) => cases h

end Members

theorem ofMembers?_eq_some_iff {range : Range} :
    Range.ofMembers? entries = some range ↔
      ∀ bound, Range.boundOfMembers? entries bound = some (range.get? bound) := by
  constructor
  · intro h
    simp only [Range.ofMembers?, Option.bind_eq_bind, Option.bind_eq_some_iff] at h
    obtain ⟨start, hstart, stop, hstop, gte, hgte, lte, hlte, gt, hgt, lt, hlt, hrange⟩ := h
    obtain rfl := Option.some.inj hrange
    intro bound
    cases bound <;> assumption
  · intro h
    rw [Range.ofMembers?, h .start, h .stop, h .gte, h .lte, h .gt, h .lt]
    rfl

theorem exists_range_iff : (∃ range, Range.ofMembers? entries = some range) ↔
    ∀ bound, ∃ limit, Range.boundOfMembers? entries bound = some limit := by
  constructor
  · rintro ⟨range, hrange⟩ bound
    exact ⟨_, ofMembers?_eq_some_iff.mp hrange bound⟩
  · intro h
    obtain ⟨limit, hlimit⟩ := Classical.skolem.mp h
    refine ⟨Range.ofBounds limit, ofMembers?_eq_some_iff.mpr fun bound => ?_⟩
    rw [hlimit, Range.get?_ofBounds]

theorem exists_members_of_object (h : document.read? levels = some (.object entries)) :
    ∃ members, document = object members := by
  have hprimitive : ¬ document.IsPrimitive := fun hprimitive => by
    obtain ⟨value, hvalue, _⟩ := exists_ofJson?_of_primitive hprimitive h
    cases hvalue
  cases document with
  | array items =>
      obtain ⟨trees, htrees⟩ := exists_of_read?_array h
      cases htrees
  | object members => exact ⟨members, rfl⟩
  | _ => exact absurd trivial hprimitive

theorem ofJson?_eq_map_equals (htree : document.read? levels = some tree)
    (hobject : ∀ members, document ≠ object members) :
    Filter.ofJson? tree = (Value.ofJson? tree).map .equals := by
  cases tree with
  | object entries =>
      obtain ⟨members, hmembers⟩ := exists_members_of_object htree
      exact absurd hmembers (hobject members)
  | _ => rfl

theorem exists_filter_iff (htree : document.read? levels = some tree) :
    (∃ filter, Filter.ofJson? tree = some filter) ↔ document.IsFilter := by
  cases document with
  | object members =>
      obtain ⟨fewer, entries, rfl, hmembers⟩ := exists_of_read?_object htree
      have hrange : (∃ filter, Filter.ofJson? (.object entries) = some filter) ↔
          ∃ range, Range.ofMembers? entries = some range := by
        simp [Filter.ofJson?]
      rw [hrange, exists_range_iff, IsFilter, forall_boundMembers_iff]
      exact forall_congr' (exists_boundOfMembers?_iff hmembers)
  | _ =>
      rw [ofJson?_eq_map_equals htree (by simp)]
      simpa [IsFilter] using exists_ofJson?_iff htree

theorem denotesFilter (htree : document.read? levels = some tree) {filter : Filter}
    (h : Filter.ofJson? tree = some filter) : document.DenotesFilter filter := by
  cases document with
  | object members =>
      obtain ⟨fewer, entries, rfl, hmembers⟩ := exists_of_read?_object htree
      obtain ⟨range, hrange, rfl⟩ := Option.map_eq_some_iff.mp h
      have hlimits := ofMembers?_eq_some_iff.mp hrange
      rw [DenotesFilter, forall_boundMembers_iff]
      exact fun bound => boundOfMembers?_eq_some hmembers (hlimits bound)
  | _ =>
      rw [ofJson?_eq_map_equals htree (by simp)] at h
      obtain ⟨value, hvalue, rfl⟩ := Option.map_eq_some_iff.mp h
      exact (ofJson?_eq_some_iff htree value).mp hvalue

end Json.Document

namespace Context

open Json Json.Document

variable {document : Document} {tree : Json} {levels : Nat}

def filterMember? (entry : String × Json) : Option (String × Filter) :=
  (Filter.ofJson? entry.2).map fun filter => (entry.1, filter)

theorem ofJson?_object (entries : List (String × Json)) :
    ofJson? (.object entries) = (entries.mapM filterMember?).map KeyMap.ofList := by
  have hmember : (fun entry : String × Json => do
      let filter ← Filter.ofJson? entry.2
      some (entry.1, filter)) = filterMember? := by
    funext entry
    rw [filterMember?]
    cases Filter.ofJson? entry.2 <;> rfl
  rw [Option.map_eq_bind, ← hmember]
  rfl

theorem exists_context_iff (htree : document.read? levels = some tree) :
    (∃ context, ofJson? tree = some context) ↔ document.IsContext := by
  by_cases hobject : ∃ members, document = .object members
  · obtain ⟨members, rfl⟩ := hobject
    obtain ⟨fewer, entries, rfl, hmembers⟩ := exists_of_read?_object htree
    calc (∃ context, ofJson? (.object entries) = some context)
        ↔ ∃ filters, entries.mapM filterMember? = some filters := by simp [ofJson?_object]
      _ ↔ ∀ entry ∈ entries, ∃ filter, Filter.ofJson? entry.2 = some filter := by
          simp [exists_mapM_iff, filterMember?]
      _ ↔ ∀ member ∈ members, member.2.IsFilter :=
          (hmembers.forall_mem_iff fun held tree htree => (exists_filter_iff htree).symm).symm
  · have hnone : ofJson? tree = none := by
      cases tree with
      | object entries => exact absurd (exists_members_of_object htree) hobject
      | _ => rfl
    cases document with
    | object members => exact absurd ⟨members, rfl⟩ hobject
    | _ => simp [hnone, IsContext]

theorem alongside_filters {members : List (Token × Document)} {entries : List (String × Json)}
    {filters : List (String × Filter)}
    (hmembers : Alongside (fun held tree => held.read? levels = some tree) members entries)
    (hfilters : entries.mapM filterMember? = some filters) :
    Alongside DenotesFilter members filters := by
  refine forall₂_of_common hmembers.flip (mapM_eq_some_iff.mp hfilters) ?_
  rintro entry member filter ⟨hname, htree⟩ hfilter
  obtain ⟨decoded, hdecoded, rfl⟩ := Option.map_eq_some_iff.mp hfilter
  exact ⟨hname, denotesFilter htree hdecoded⟩

/-- **Decoding accepts just the contexts.** -/
theorem ofKey?_of_hasText {text : String} (htext : document.HasText text.toList)
    (hlimits : document.Within Token.Paired 127) :
    ((∃ context, ofKey? text = some context) ↔ document.IsContext) ∧
      ∀ context, ofKey? text = some context → ∃ members, document = .object members ∧
        ∀ dimension, match (named dimension members).getLast? with
          | none => context.get? dimension = none
          | some last => ∃ filter, context.get? dimension = some filter ∧
              last.DenotesFilter filter := by
  obtain ⟨tree, htree⟩ := exists_read? hlimits
  rw [ofKey?, parse?_of_hasText htext htree, Option.bind_eq_bind, Option.bind_some]
  refine ⟨exists_context_iff htree, fun context hcontext => ?_⟩
  cases tree with
  | object entries =>
      obtain ⟨members, rfl⟩ := exists_members_of_object htree
      obtain ⟨fewer, _, hentries, hmembers⟩ := exists_of_read?_object htree
      cases hentries
      rw [ofJson?_object] at hcontext
      obtain ⟨filters, hfilters, rfl⟩ := Option.map_eq_some_iff.mp hcontext
      refine ⟨members, rfl, fun dimension => ?_⟩
      have hlast := getLast?_of_forall₂ ((alongside_filters hmembers hfilters).named dimension)
      rw [KeyMap.get?_ofList_eq_getLast?]
      cases hnamed : (named dimension members).getLast? with
      | none =>
          rw [hnamed] at hlast
          simp [hlast]
      | some last =>
          rw [hnamed] at hlast
          obtain ⟨filter, hfilter, hdenotes⟩ := hlast
          exact ⟨filter.2, by rw [hfilter]; rfl, hdenotes⟩
  | _ => cases hcontext

/-! A dimension that is given twice, and a range with a member that is no bound. -/

def letterA : Json.PlainChar := ⟨'a', by decide, by decide, by decide⟩

def letterB : Json.PlainChar := ⟨'b', by decide, by decide, by decide⟩

def negativeZero : Document :=
  .number ⟨true, ['0'], none, none⟩ ⟨Json.isWhole_toDigits 0, nofun, nofun⟩

def seven : Document := .number ⟨false, ['7'], none, none⟩ ⟨Json.isWhole_toDigits 7, nofun, nofun⟩

def repeatedDimension : Document := .object [
  ([.plain letterA], negativeZero),
  ([.plain letterB], .object [([.plain letterA], .array [])]),
  ([.plain letterA], seven)]

theorem hasText_repeatedDimension : repeatedDimension.HasText
    "\x7b\"a\":-0, \"b\":\x7b\"a\":[ ]\x7d,\"a\" :7\x7d".toList := by
  have hzero : negativeZero.Spelled "-0".toList := ⟨_, .none, rfl⟩
  have hseven : seven.Spelled "7".toList := ⟨_, .none, rfl⟩
  have hempty : Spelled (.array []) "[ ]".toList := ⟨_, _, rfl, .empty blank_space, rfl⟩
  have hinner : Spelled (.object [([.plain letterA], .array [])]) "\x7b\"a\":[ ]\x7d".toList :=
    ⟨_, _, ⟨_, _, ⟨_, hempty, [], [], blank_nil, blank_nil, rfl⟩, rfl, rfl⟩,
      .last blank_nil blank_nil, rfl⟩
  exact ⟨[], _, [], blank_nil, blank_nil, ⟨_, _,
    ⟨_, _, ⟨_, hzero, [], [], blank_nil, blank_nil, rfl⟩,
      ⟨_, _, ⟨_, hinner, [], [], blank_nil, blank_nil, rfl⟩,
        ⟨_, _, ⟨_, hseven, [' '], [], blank_space, blank_nil, rfl⟩, rfl, rfl⟩, rfl⟩, rfl⟩,
    .more blank_nil blank_nil (.more blank_space blank_nil (.last blank_nil blank_nil)), rfl⟩, rfl⟩

theorem within_repeatedDimension :
    repeatedDimension.Within Token.Paired 127 := by
  have hcoefficient : (Numeral.mk true ['0'] none none).coefficient = 0 := rfl
  have hzero : (Numeral.value? ⟨true, ['0'], none, none⟩).isSome = true := by
    refine Numeral.isSome_value? ⟨Json.isWhole_toDigits 0, nofun, nofun⟩ nofun ?_
    rw [hcoefficient, Nat.cast_zero, zero_mul]
    positivity
  have hseven : (Numeral.value? ⟨false, ['7'], none, none⟩).isSome = true := rfl
  simp [repeatedDimension, negativeZero, seven, Within, Token.Paired, Token.content?, hzero,
    hseven]

theorem eq_of_denotesFilter_seven {filter : Filter} (h : seven.DenotesFilter filter) :
    filter = .equals (.int 7) := by
  cases filter with
  | range range => exact h.elim
  | equals value =>
      rcases h with ⟨n, hn, rfl⟩ | ⟨hnone, _⟩
      · have hseven : (7 : Int64).toInt = n.toInt := Option.some.inj hn
        rw [Int64.toInt_inj.mp hseven]
      · exact absurd rfl (hnone 7)

/-- The seven counts and not the zero, and the object is a range without bounds. -/
theorem ofKey?_of_hasText_repeatedDimension :
    let text := "\x7b\"a\":-0, \"b\":\x7b\"a\":[ ]\x7d,\"a\" :7\x7d"
    repeatedDimension.HasText text.toList ∧
      repeatedDimension.Within Token.Paired 127 ∧
      ∃ context, ofKey? text = some context ∧ context.get? "a" = some (.equals (.int 7)) ∧
        context.get? "c" = none := by
  have htext := hasText_repeatedDimension
  have hlimits := within_repeatedDimension
  obtain ⟨haccepts, hfilters⟩ := ofKey?_of_hasText htext hlimits
  have hcontext : repeatedDimension.IsContext := by
    simp [repeatedDimension, negativeZero, seven, IsContext, IsFilter, IsPrimitive, boundMembers,
      named, Token.content?, letterA]
  obtain ⟨context, hread⟩ := haccepts.mpr hcontext
  obtain ⟨members, hmembers, hget⟩ := hfilters context hread
  obtain rfl := Document.object.inj hmembers
  obtain ⟨filter, hfilter, hdenotes⟩ := hget "a"
  obtain rfl := eq_of_denotesFilter_seven hdenotes
  exact ⟨htext, hlimits, context, hread, hfilter, hget "c"⟩

/-- A range with a string that is no bound, and no string of characters either. -/
def loneSurrogate : Document := .object [([.plain letterA], .object [([.plain letterB],
  .string [.unit ⟨⟨13, false⟩, ⟨8, false⟩, ⟨0, false⟩, ⟨0, false⟩⟩])])]

/-- Nothing stands for a surrogate on its own, so a text with one is refused wherever it is. -/
theorem ofKey?_loneSurrogate :
    let text := "\x7b\"a\":\x7b\"b\":\"\\ud800\"\x7d\x7d"
    loneSurrogate.HasText text.toList ∧ loneSurrogate.Within (fun _ => True) 127 ∧
      loneSurrogate.IsContext ∧ ofKey? text = none := by
  refine ⟨?_, ?_, ?_, ?_⟩
  · have hinner : Spelled (.object [([.plain letterB],
        .string [.unit ⟨⟨13, false⟩, ⟨8, false⟩, ⟨0, false⟩, ⟨0, false⟩⟩])])
        "\x7b\"b\":\"\\ud800\"\x7d".toList :=
      ⟨_, _, ⟨_, _, ⟨_, rfl, [], [], blank_nil, blank_nil, rfl⟩, rfl, rfl⟩,
        .last blank_nil blank_nil, rfl⟩
    exact ⟨[], _, [], blank_nil, blank_nil,
      ⟨_, _, ⟨_, _, ⟨_, hinner, [], [], blank_nil, blank_nil, rfl⟩, rfl, rfl⟩,
        .last blank_nil blank_nil, rfl⟩, rfl⟩
  · simp [loneSurrogate, Within]
  · simp [loneSurrogate, IsContext, IsFilter, IsPrimitive, boundMembers, named, Token.content?,
      letterB]
  · rfl

end Context

end MetricLayer
