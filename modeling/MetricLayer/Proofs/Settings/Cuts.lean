import MetricLayer.Settings
import MetricLayer.Proofs.Decimal.Digits
import Mathlib.Data.List.Basic
import Mathlib.Data.List.TakeWhile

/-!
# Cutting paths

A path is cut into single characters, references to variables, and dollar signs that start no
reference. There is exactly one way to cut a text, and expansion follows it: each reference gives
way to what its variable holds, and nothing of that is looked at again.
-/

namespace MetricLayer.Expansion

/-- A part of a path, as it is written. -/
inductive Piece where
  | plain (c : Char)
  | braced (name : List Char) (closed : Bool)
  | bare (name : List Char)
  | dollar
deriving DecidableEq, Repr

namespace Piece

def text : Piece → List Char
  | plain c => [c]
  | braced name closed =>
      '$' :: '\x7b' :: (name ++ if closed then ['\x7d'] else [])
  | bare name => '$' :: name
  | dollar => ['$']

/-- Whether the piece may stand in front of this rest. A brace may be left open at the end of the
path only. A name without braces goes on as far as it can, and a dollar sign on its own starts
no reference. -/
def Fits : Piece → List Char → Prop
  | plain c, _ => c ≠ '$'
  | braced name closed, rest => '\x7d' ∉ name ∧ (closed = false → rest = [])
  | bare name, rest =>
      name ≠ [] ∧ (∀ c ∈ name, isNameChar c = true) ∧ ∀ c ∈ rest.head?, isNameChar c = false
  | dollar, rest => ∀ c ∈ rest.head?, c ≠ '\x7b' ∧ isNameChar c = false

def name? : Piece → Option String
  | braced name _ | bare name => some (String.ofList name)
  | plain _ | dollar => none

/-- What stands in the expanded path. -/
def expanded (environment : Environment) (piece : Piece) : List Char :=
  match piece.name? with
  | some name => ((environment name).getD "").toList
  | none => piece.text

/-- The segment of a piece. It keeps the name of a reference and not how it is written. -/
def segment : Piece → Segment
  | plain c => .plain c
  | braced name _ | bare name => .reference (String.ofList name)
  | dollar => .plain '$'

end Piece

/-- The pieces make up the text, and each one may stand in front of those behind it. -/
inductive Cut : List Piece → List Char → Prop
  | nil : Cut [] []
  | cons {piece : Piece} {pieces : List Piece} {rest : List Char} (fits : piece.Fits rest)
      (cut : Cut pieces rest) : Cut (piece :: pieces) (piece.text ++ rest)

/-- The reference that an opening brace makes of what follows it, and the rest. -/
def bracedPiece (later : List Char) : Piece × List Char :=
  (.braced (later.takeWhile (· ≠ '\x7d')) (decide ('\x7d' ∈ later)),
    (later.dropWhile (· ≠ '\x7d')).drop 1)

def firstPiece? : List Char → Option (Piece × List Char)
  | [] => none
  | '$' :: '\x7b' :: rest => some (bracedPiece rest)
  | c :: rest =>
      if c = '$' ∧ rest.head?.any isNameChar then
        some (.bare (rest.takeWhile isNameChar), rest.dropWhile isNameChar)
      else some (if c = '$' then .dollar else .plain c, rest)

section First

variable {piece : Piece} {text rest : List Char}

/-- Where no brace follows a dollar sign, it depends on the next character what it starts. -/
theorem firstPiece?_cons {c : Char} (h : c = '$' → rest.head? ≠ some '\x7b') :
    firstPiece? (c :: rest) =
      if c = '$' ∧ rest.head?.any isNameChar then
        some (.bare (rest.takeWhile isNameChar), rest.dropWhile isNameChar)
      else some (if c = '$' then .dollar else .plain c, rest) := by
  rw [firstPiece?]
  rintro later rfl rfl
  exact h rfl rfl

/-- The name stops at a closing brace, or with the text where none follows. -/
theorem bracedPiece_append {name : List Char} {closed : Bool}
    (h : (Piece.braced name closed).Fits rest) :
    bracedPiece (name ++ ((if closed then ['\x7d'] else []) ++ rest)) =
      (.braced name closed, rest) := by
  obtain ⟨hname, hrest⟩ := h
  have hinside : ∀ c ∈ name, decide (c ≠ '\x7d') = true :=
    fun c hc => decide_eq_true fun heq => hname (heq ▸ hc)
  cases closed with
  | true =>
      have hstop : ∀ c ∈ ('\x7d' :: rest).head?, decide (c ≠ '\x7d') = false :=
        fun c hc => Option.some.inj hc ▸ rfl
      have hmem : '\x7d' ∈ name ++ '\x7d' :: rest := List.mem_append_right _ List.mem_cons_self
      rw [if_pos rfl, List.singleton_append, bracedPiece,
        Decimal.takeWhile_append_of_stop hinside hstop,
        Decimal.dropWhile_append_of_stop hinside hstop, decide_eq_true hmem]
      rfl
  | false =>
      have hstop : ∀ c ∈ ([] : List Char).head?, decide (c ≠ '\x7d') = false := nofun
      have hmem : '\x7d' ∉ name ++ [] := by rwa [List.append_nil]
      rw [if_neg Bool.false_ne_true, List.nil_append, hrest rfl, bracedPiece,
        Decimal.takeWhile_append_of_stop hinside hstop,
        Decimal.dropWhile_append_of_stop hinside hstop, decide_eq_false hmem]
      rfl

/-- A piece is cut off again where it may stand. -/
theorem firstPiece?_append (h : piece.Fits rest) :
    firstPiece? (piece.text ++ rest) = some (piece, rest) := by
  cases piece with
  | plain c =>
      have hc : c ≠ '$' := h
      rw [Piece.text, List.singleton_append, firstPiece?_cons fun heq => absurd heq hc,
        if_neg fun hdollar => hc hdollar.1, if_neg hc]
  | braced name closed =>
      rw [Piece.text, List.cons_append, List.cons_append, List.append_assoc, firstPiece?,
        bracedPiece_append h]
  | bare name =>
      obtain ⟨hne, hname, hrest⟩ := h
      obtain ⟨c, later, rfl⟩ := List.exists_cons_of_ne_nil hne
      have hc : isNameChar c = true := hname c List.mem_cons_self
      have hbrace : (c :: later ++ rest).head? ≠ some '\x7b' := fun heq =>
        absurd (Option.some.inj heq ▸ hc) (by decide +kernel)
      rw [Piece.text, List.cons_append, firstPiece?_cons fun _ => hbrace,
        if_pos ⟨rfl, hc⟩, Decimal.takeWhile_append_of_stop hname hrest,
        Decimal.dropWhile_append_of_stop hname hrest]
  | dollar =>
      have hany : ¬rest.head?.any isNameChar = true := by
        rw [Option.any_eq_true]
        rintro ⟨c, hc, hname⟩
        exact Bool.false_ne_true ((h c hc).2.symm.trans hname)
      rw [Piece.text, List.singleton_append, firstPiece?_cons fun _ heq => (h _ heq).1 rfl,
        if_neg fun hname => hany hname.2, if_pos rfl]

/-- A name in braces ends at the first closing brace, or else with the path. -/
theorem fits_bracedPiece (later : List Char) :
    (bracedPiece later).1.Fits (bracedPiece later).2 ∧
      '$' :: '\x7b' :: later = (bracedPiece later).1.text ++ (bracedPiece later).2 := by
  have hname : '\x7d' ∉ later.takeWhile (· ≠ '\x7d') := by
    intro hmem
    have hbrace := List.mem_takeWhile_imp hmem
    exact of_decide_eq_true hbrace rfl
  have hsplit : later.takeWhile (· ≠ '\x7d') ++ later.dropWhile (· ≠ '\x7d') = later :=
    List.takeWhile_append_dropWhile
  have hmem : '\x7d' ∈ later ↔ '\x7d' ∈ later.dropWhile (· ≠ '\x7d') := by
    have happend := List.mem_append (a := '\x7d') (s := later.takeWhile (· ≠ '\x7d'))
      (t := later.dropWhile (· ≠ '\x7d'))
    rwa [hsplit, or_iff_right hname] at happend
  have hhead := List.head?_dropWhile_not (· ≠ '\x7d') later
  unfold bracedPiece
  cases hdrop : later.dropWhile (· ≠ '\x7d') with
  | nil =>
      rw [hdrop, List.append_nil] at hsplit
      rw [hdrop] at hmem
      rw [decide_eq_false (hmem.not.mpr List.not_mem_nil)]
      refine ⟨⟨hname, fun _ => rfl⟩, ?_⟩
      rw [Piece.text, if_neg Bool.false_ne_true, List.drop_nil, List.append_nil, List.append_nil,
        hsplit]
  | cons c rest =>
      obtain rfl : c = '\x7d' := by
        rw [hdrop] at hhead
        exact not_not.mp (of_decide_eq_false hhead)
      rw [hdrop] at hmem hsplit
      rw [decide_eq_true (hmem.mpr List.mem_cons_self)]
      refine ⟨⟨hname, nofun⟩, ?_⟩
      rw [Piece.text, if_pos rfl, List.cons_append, List.cons_append, List.append_assoc]
      exact congrArg _ (congrArg _ hsplit.symm)

/-- The first piece fits in front of the rest, and only an empty text has none. -/
theorem fits_firstPiece? (text : List Char) :
    match firstPiece? text with
    | none => text = []
    | some (piece, rest) => piece.Fits rest ∧ text = piece.text ++ rest := by
  fun_cases firstPiece? text with
  | case1 => rfl
  | case2 rest => exact fits_bracedPiece rest
  | case3 c rest _ hname =>
      obtain ⟨rfl, hany⟩ := hname
      obtain ⟨c, hhead, hc⟩ := (Option.any_eq_true ..).mp hany
      obtain ⟨later, rfl⟩ := List.head?_eq_some_iff.mp hhead
      refine ⟨⟨?_, fun _ => List.mem_takeWhile_imp, ?_⟩, ?_⟩
      · rw [List.takeWhile_cons_of_pos hc]
        exact List.cons_ne_nil _ _
      · intro d hd
        have hstop := List.head?_dropWhile_not isNameChar (c :: later)
        rw [hd] at hstop
        exact hstop
      · rw [Piece.text, List.cons_append, List.takeWhile_append_dropWhile]
  | case4 c rest hbrace hname =>
      by_cases hc : c = '$'
      · obtain rfl := hc
        rw [if_pos rfl]
        refine ⟨fun d hd => ⟨?_, ?_⟩, rfl⟩
        · rintro rfl
          obtain ⟨later, rfl⟩ := List.head?_eq_some_iff.mp hd
          exact hbrace later rfl rfl
        · refine Bool.eq_false_iff.mpr fun hd' => hname ⟨rfl, ?_⟩
          exact (Option.any_eq_true ..).mpr ⟨d, hd, hd'⟩
      · rw [if_neg hc]
        exact ⟨hc, rfl⟩

theorem segments_eq (text : List Char) : segments text =
    match firstPiece? text with
    | none => []
    | some (piece, rest) => piece.segment :: segments rest := by
  fun_cases firstPiece? text with
  | case1 => rw [segments]
  | case2 rest => rw [segments]; rfl
  | case3 c rest hbrace hname =>
      rw [segments.eq_3 c rest hbrace, if_pos hname]
      rfl
  | case4 c rest hbrace hname =>
      rw [segments.eq_3 c rest hbrace, if_neg hname]
      by_cases hc : c = '$'
      · rw [if_pos hc, hc]
        rfl
      · rw [if_neg hc]
        rfl

end First

section Cuts

variable {piece : Piece} {pieces others : List Piece} {text : List Char}

theorem Piece.length_text_pos (piece : Piece) : 0 < piece.text.length := by
  cases piece <;> exact Nat.succ_pos _

/-- A cut begins with the first piece of the text. -/
theorem Cut.firstPiece?_eq (h : Cut pieces text) :
    match pieces with
    | [] => firstPiece? text = none
    | piece :: later => ∃ rest, firstPiece? text = some (piece, rest) ∧ Cut later rest := by
  cases h with
  | nil => rfl
  | cons fits cut => exact ⟨_, firstPiece?_append fits, cut⟩

theorem Cut.unique (h : Cut pieces text) (h' : Cut others text) : pieces = others := by
  induction h generalizing others with
  | nil =>
      cases others with
      | nil => rfl
      | cons piece later =>
          obtain ⟨rest, hfirst, -⟩ := h'.firstPiece?_eq
          cases hfirst
  | cons fits cut ih =>
      have hfirst := firstPiece?_append fits
      cases others with
      | nil => cases hfirst.symm.trans h'.firstPiece?_eq
      | cons piece later =>
          obtain ⟨rest, hother, hlater⟩ := h'.firstPiece?_eq
          obtain ⟨rfl, rfl⟩ := Prod.mk.inj (Option.some.inj (hfirst.symm.trans hother))
          rw [ih hlater]

theorem exists_cut (text : List Char) : ∃ pieces, Cut pieces text := by
  induction hlength : text.length using Nat.strong_induction_on generalizing text with
  | h length ih =>
      have hfits := fits_firstPiece? text
      cases hfirst : firstPiece? text with
      | none =>
          rw [hfirst] at hfits
          exact ⟨[], hfits ▸ .nil⟩
      | some cut =>
          obtain ⟨piece, rest⟩ := cut
          rw [hfirst] at hfits
          obtain ⟨hfit, rfl⟩ := hfits
          have hshorter : rest.length < length := by
            rw [← hlength, List.length_append]
            exact Nat.lt_add_of_pos_left piece.length_text_pos
          obtain ⟨pieces, hcut⟩ := ih rest.length hshorter rest rfl
          exact ⟨piece :: pieces, .cons hfit hcut⟩

theorem Cut.segments_eq (h : Cut pieces text) : segments text = pieces.map Piece.segment := by
  induction h with
  | nil => rw [segments, List.map_nil]
  | cons fits cut ih =>
      rw [Expansion.segments_eq, firstPiece?_append fits]
      exact congrArg (List.cons _) ih

end Cuts

section Expanded

variable (environment : Environment)

/-- The first of the variables that is not defined. -/
def undefined? (names : List String) : Option String :=
  names.find? fun name => (environment name).isNone

theorem undefined?_cons (name : String) (names : List String) :
    undefined? environment (name :: names) =
      if (environment name).isNone then some name else undefined? environment names := by
  rw [undefined?, List.find?_cons]
  cases (environment name).isNone <;> rfl

/-- What a segment stands for if its variable is defined. -/
def Segment.value : Segment → String
  | plain c => String.singleton c
  | reference name => (environment name).getD ""

/-- Segments are resolved from the left up to the first variable that is not defined. -/
theorem mapM_resolve (items : List Segment) : items.mapM (·.resolve environment) =
    match undefined? environment (items.filterMap Segment.name?) with
    | some name => .error name
    | none => .ok (items.map (·.value environment)) := by
  induction items with
  | nil => rfl
  | cons head rest ih =>
      rw [List.mapM_cons, ih]
      cases head with
      | plain c =>
          have hnames : (Segment.plain c :: rest).filterMap Segment.name? =
              rest.filterMap Segment.name? := List.filterMap_cons_none rfl
          rw [hnames]
          cases undefined? environment (rest.filterMap Segment.name?) with
          | none => rfl
          | some name => rfl
      | reference name =>
          have hnames : (Segment.reference name :: rest).filterMap Segment.name? =
              name :: rest.filterMap Segment.name? := List.filterMap_cons_some rfl
          rw [hnames, undefined?_cons, List.map_cons, Segment.resolve, Segment.value]
          cases environment name with
          | none => rfl
          | some value =>
              rw [Option.isNone_some, if_neg Bool.false_ne_true]
              cases undefined? environment (rest.filterMap Segment.name?) with
              | none => rfl
              | some missing => rfl

theorem Piece.name?_segment (piece : Piece) : piece.segment.name? = piece.name? := by
  cases piece <;> rfl

theorem Piece.toList_value_segment (piece : Piece) :
    (piece.segment.value environment).toList = piece.expanded environment := by
  cases piece with
  | plain c => exact String.toList_singleton c
  | braced name closed => rfl
  | bare name => rfl
  | dollar => exact String.toList_singleton '$'

/-- **Expansion is one pass from left to right over an unambiguous cut.** Every path can be cut in
exactly one way. If all variables that it refers to are defined, the expanded path has what they
hold in place of the references and everything else as it was; otherwise the error names the first
reference, from the left, to a variable that is not. -/
theorem expandVariables_cut (text : String) :
    ∃ pieces, (∀ others, Cut others text.toList ↔ others = pieces) ∧
      (expandVariables environment text).mapError SettingsError.missingVariable =
        match undefined? environment (pieces.filterMap Piece.name?) with
        | some name => .error (.missingVariable name)
        | none => .ok (String.ofList (pieces.flatMap (·.expanded environment))) := by
  obtain ⟨pieces, hcut⟩ := exists_cut text.toList
  have hnames : (segments text.toList).filterMap Segment.name? =
      pieces.filterMap Piece.name? := by
    rw [hcut.segments_eq, List.filterMap_map]
    exact List.filterMap_congr fun piece _ => piece.name?_segment
  have hjoin : String.join ((segments text.toList).map (·.value environment)) =
      String.ofList (pieces.flatMap (·.expanded environment)) := by
    rw [← String.toList_inj, String.toList_join, String.toList_ofList, hcut.segments_eq,
      List.map_map, List.flatMap_map]
    exact List.flatMap_congr fun piece _ => piece.toList_value_segment environment
  refine ⟨pieces, fun others => ⟨fun h => h.unique hcut, fun h => h ▸ hcut⟩, ?_⟩
  rw [expandVariables, mapM_resolve, hnames]
  cases undefined? environment (pieces.filterMap Piece.name?) with
  | none => exact congrArg Except.ok hjoin
  | some name => rfl

example : expandVariables (fun name => if name = "HOME" then some "/h$x" else none)
    "$$HOME/$\x7bHOME\x7d$" = .ok "$/h$x//h$x$" := by cbv

end Expanded

end MetricLayer.Expansion
