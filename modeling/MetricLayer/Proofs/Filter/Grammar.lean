import MetricLayer.Filter.Expression
import MetricLayer.Proofs.Text.Trimming

/-!
# The grammar of filter expressions

An expression is a key, an operator and the text of a value, with blanks around them. The grammar
says so without an order in which to look for the parts, and still leaves no choice: a text has one
shape at most. Parsing finds the shape if there is one, and builds the filter that it stands for.
-/

namespace MetricLayer.Expression

open Text

def KeyStart (c : Char) : Prop := ('A' ≤ c ∧ c ≤ 'Z') ∨ ('a' ≤ c ∧ c ≤ 'z') ∨ c = '_'

def KeyChar (c : Char) : Prop := KeyStart c ∨ ('0' ≤ c ∧ c ≤ '9') ∨ c = '.'

def IsKey (key : List Char) : Prop :=
  ∃ first rest, key = first :: rest ∧ KeyStart first ∧ ∀ c ∈ rest, KeyChar c

theorem isKeyStart_iff {c : Char} : isKeyStart c = true ↔ KeyStart c := by
  have hupper : c.isUpper = true ↔ 'A' ≤ c ∧ c ≤ 'Z' := decide_eq_true_iff
  have hlower : c.isLower = true ↔ 'a' ≤ c ∧ c ≤ 'z' :=
    Bool.and_eq_true_iff.trans (and_congr decide_eq_true_iff decide_eq_true_iff)
  have halpha : c.isAlpha = true ↔ c.isUpper = true ∨ c.isLower = true := Bool.or_eq_true_iff
  rw [isKeyStart, Bool.or_eq_true_iff, decide_eq_true_iff, halpha, hupper, hlower, or_assoc,
    KeyStart]

theorem isKeyChar_iff {c : Char} : isKeyChar c = true ↔ KeyChar c := by
  have hdigit : c.isDigit = true ↔ '0' ≤ c ∧ c ≤ '9' :=
    Bool.and_eq_true_iff.trans (and_congr decide_eq_true_iff decide_eq_true_iff)
  have halphanum : c.isAlphanum = true ↔ c.isAlpha = true ∨ c.isDigit = true :=
    Bool.or_eq_true_iff
  rw [KeyChar, ← isKeyStart_iff, isKeyStart, isKeyChar]
  simp only [Bool.or_eq_true, decide_eq_true_eq, halphanum, hdigit]
  tauto

theorem not_isBlank_of_keyChar {c : Char} (h : KeyChar c) : isBlank c = false := by
  have hcode : (65 ≤ c.toNat ∧ c.toNat ≤ 90) ∨ (97 ≤ c.toNat ∧ c.toNat ≤ 122) ∨ c.toNat = 95 ∨
      (48 ≤ c.toNat ∧ c.toNat ≤ 57) ∨ c.toNat = 46 := by
    simp only [KeyChar, KeyStart, Char.le_def, UInt32.le_iff_toNat_le] at h
    rcases h with (h | h | rfl) | h | rfl
    · exact .inl h
    · exact .inr (.inl h)
    · exact .inr (.inr (.inl rfl))
    · exact .inr (.inr (.inr (.inl h)))
    · exact .inr (.inr (.inr (.inr rfl)))
  simp only [isBlank, Bool.or_eq_false_iff, Bool.and_eq_false_iff, decide_eq_false_iff_not]
  omega

theorem IsKey.keyChar {key : List Char} (h : IsKey key) : ∀ c ∈ key, KeyChar c := by
  obtain ⟨first, rest, rfl, hfirst, hrest⟩ := h
  intro c hc
  rcases List.mem_cons.mp hc with rfl | hc
  · exact .inl hfirst
  · exact hrest c hc

theorem isKey_iff {key : List Char} :
    IsKey key ↔ key.head?.any isKeyStart = true ∧ ∀ c ∈ key, isKeyChar c = true := by
  constructor
  · intro h
    refine ⟨?_, fun c hc => isKeyChar_iff.mpr (h.keyChar c hc)⟩
    obtain ⟨first, rest, rfl, hfirst, -⟩ := h
    exact isKeyStart_iff.mpr hfirst
  · rintro ⟨hstart, hchars⟩
    cases key with
    | nil => cases hstart
    | cons first rest =>
        exact ⟨first, rest, rfl, isKeyStart_iff.mp hstart,
          fun c hc => isKeyChar_iff.mp (hchars c (List.mem_cons_of_mem first hc))⟩

instance (key : List Char) : Decidable (IsKey key) :=
  decidable_of_iff (key.head?.any isKeyStart = true ∧ key.all isKeyChar = true) <| by
    rw [isKey_iff, List.all_eq_true]

namespace Operator

def symbol : Operator → List Char
  | atLeast => ['>', '=']
  | atMost => ['<', '=']
  | equal => ['=']
  | above => ['>']
  | below => ['<']

/-- The filter that asks for values on this side of the value, or for the value itself. -/
def build (operator : Operator) (value : Value) : Filter :=
  match operator with
  | atLeast => .range (.atLeast value)
  | atMost => .range (.atMost value)
  | equal => .equals value
  | above => .range (.above value)
  | below => .range (.below value)

/-- The text begins with the operator and with no longer one. -/
def Leads (operator : Operator) (text : List Char) : Prop :=
  operator.symbol <+: text ∧
    ∀ other : Operator, other.symbol <+: text → other.symbol.length ≤ operator.symbol.length

theorem exists_symbol_eq (operator : Operator) :
    ∃ c rest, operator.symbol = c :: rest ∧ isBlank c = false ∧ isKeyChar c = false := by
  cases operator <;> exact ⟨_, _, rfl, by decide, by decide⟩

/-- Only `>` and `<` begin a longer operator, with an equals sign behind them. -/
theorem leads_append_iff {tail : List Char} (operator : Operator) :
    operator.Leads (operator.symbol ++ tail) ↔
      (operator = above ∨ operator = below → tail.head? ≠ some '=') := by
  constructor
  · rintro ⟨-, hlongest⟩ hshort hhead
    obtain ⟨rest, rfl⟩ := List.head?_eq_some_iff.mp hhead
    rcases hshort with rfl | rfl
    · exact absurd (hlongest atLeast ⟨rest, rfl⟩) (by decide)
    · exact absurd (hlongest atMost ⟨rest, rfl⟩) (by decide)
  · intro h
    refine ⟨List.prefix_append _ _, fun other hother => ?_⟩
    cases operator with
    | above =>
        cases other <;> simp [symbol] at hother ⊢
        obtain ⟨rest, rfl⟩ := hother
        exact h (.inl rfl) rfl
    | below =>
        cases other <;> simp [symbol] at hother ⊢
        obtain ⟨rest, rfl⟩ := hother
        exact h (.inr rfl) rfl
    | _ => cases other <;> simp [symbol] at hother ⊢

/-- The two operators of two characters are looked for first, so the longest one is found. -/
theorem split?_eq_some_iff {operator : Operator} {text rest : List Char} :
    split? text = some (operator, rest) ↔
      operator.Leads text ∧ text = operator.symbol ++ rest := by
  constructor
  · intro h
    unfold split? at h
    split at h <;> cases h
    · exact ⟨(leads_append_iff atLeast).mpr (by simp), rfl⟩
    · exact ⟨(leads_append_iff atMost).mpr (by simp), rfl⟩
    · exact ⟨(leads_append_iff equal).mpr (by simp), rfl⟩
    · rename_i hlonger
      refine ⟨(leads_append_iff above).mpr fun _ hhead => ?_, rfl⟩
      obtain ⟨tail, rfl⟩ := List.head?_eq_some_iff.mp hhead
      exact hlonger tail rfl
    · rename_i hlonger
      refine ⟨(leads_append_iff below).mpr fun _ hhead => ?_, rfl⟩
      obtain ⟨tail, rfl⟩ := List.head?_eq_some_iff.mp hhead
      exact hlonger tail rfl
  · rintro ⟨hleads, rfl⟩
    rw [leads_append_iff] at hleads
    cases operator with
    | atLeast => rfl
    | atMost => rfl
    | equal => rfl
    | above =>
        rw [symbol, List.cons_append, List.nil_append, split?]
        rintro tail rfl
        exact hleads (.inl rfl) rfl
    | below =>
        rw [symbol, List.cons_append, List.nil_append, split?]
        rintro tail rfl
        exact hleads (.inr rfl) rfl

end Operator

/-- The text is made of the key, the operator and the value's text, which has no line feed, and of
blanks around them. The operator is the longest one that stands there. -/
structure Shaped (text key : List Char) (operator : Operator) (raw : List Char) : Prop where
  isKey : IsKey key
  lineFree : '\n' ∉ raw
  spaced : ∃ front gap tail, Blank front ∧ Blank gap ∧ operator.Leads (operator.symbol ++ tail) ∧
    TrimsTo tail raw ∧ text = front ++ (key ++ (gap ++ (operator.symbol ++ tail)))

variable {text key raw : List Char} {operator : Operator}

theorem Shaped.split?_eq (h : Shaped text key operator raw) :
    split? text = some (key, operator, raw) := by
  obtain ⟨front, gap, tail, hfront, hgap, hleads, hraw, rfl⟩ := h.spaced
  obtain ⟨hstart, hchars⟩ := isKey_iff.mp h.isKey
  obtain ⟨c, rest, hsymbol, hblank, hkey⟩ := operator.exists_symbol_eq
  -- The key ends where a blank or the operator stands, and the operator begins after the blanks.
  have hstop : ∀ other ∈ (gap ++ (operator.symbol ++ tail)).head?, isKeyChar other = false := by
    intro other hother
    cases gap with
    | nil =>
        rw [List.nil_append, hsymbol] at hother
        obtain rfl := Option.some.inj hother
        exact hkey
    | cons first blanks =>
        obtain rfl := Option.some.inj hother
        refine Bool.eq_false_iff.mpr fun hchar => ?_
        have hfalse := not_isBlank_of_keyChar (isKeyChar_iff.mp hchar)
        rw [hgap first List.mem_cons_self] at hfalse
        cases hfalse
  have hhead : ∀ other ∈ (key ++ (gap ++ (operator.symbol ++ tail))).head?,
      isBlank other = false := by
    intro other hother
    obtain ⟨first, others, rfl, hfirst, -⟩ := h.isKey
    obtain rfl := Option.some.inj hother
    exact not_isBlank_of_keyChar (.inl hfirst)
  have hoperator : ∀ other ∈ (operator.symbol ++ tail).head?, isBlank other = false := by
    intro other hother
    rw [hsymbol] at hother
    obtain rfl := Option.some.inj hother
    exact hblank
  have hsplit : Operator.split? (operator.symbol ++ tail) = some (operator, tail) :=
    Operator.split?_eq_some_iff.mpr ⟨hleads, rfl⟩
  have hline : raw.contains '\n' = false := by
    rw [List.contains_eq_mem, decide_eq_false_iff_not]
    exact h.lineFree
  unfold split?
  rw [dropBlank_append hfront hhead]
  dsimp only
  rw [Decimal.takeWhile_append_of_stop hchars hstop, if_pos hstart,
    Decimal.dropWhile_append_of_stop hchars hstop, dropBlank_append hgap hoperator, hsplit,
    Option.bind_eq_bind, Option.bind_some, trimChars_eq_iff.mpr hraw, hline,
    if_neg Bool.false_ne_true]

theorem shaped_of_split?_eq (h : split? text = some (key, operator, raw)) :
    Shaped text key operator raw := by
  unfold split? at h
  dsimp only at h
  split at h
  · rename_i hstart
    obtain ⟨⟨found, tail⟩, hfound, h⟩ := Option.bind_eq_some_iff.mp h
    dsimp only at h
    split at h
    · cases h
    · rename_i hline
      obtain ⟨rfl, rfl, rfl⟩ := Option.some.inj h
      obtain ⟨front, hfront, htext⟩ := exists_eq_append_dropBlank text
      obtain ⟨gap, hgap, hrest⟩ :=
        exists_eq_append_dropBlank ((dropBlank text).dropWhile isKeyChar)
      obtain ⟨hleads, hoperator⟩ := Operator.split?_eq_some_iff.mp hfound
      refine ⟨isKey_iff.mpr ⟨hstart, fun c => List.mem_takeWhile_imp⟩, ?_, front, gap, tail,
        hfront, hgap, hoperator ▸ hleads, trimsTo_trimChars tail, ?_⟩
      · rwa [List.contains_eq_mem, decide_eq_true_eq] at hline
      · rw [← hoperator, ← hrest, List.takeWhile_append_dropWhile, ← htext]
  · cases h

theorem split?_eq_some_iff :
    split? text = some (key, operator, raw) ↔ Shaped text key operator raw :=
  ⟨shaped_of_split?_eq, Shaped.split?_eq⟩

theorem Shaped.unique {key' raw' : List Char} {operator' : Operator}
    (h : Shaped text key operator raw) (h' : Shaped text key' operator' raw') :
    key = key' ∧ operator = operator' ∧ raw = raw' := by
  simpa using h.split?_eq.symm.trans h'.split?_eq

theorem split?_eq_none_iff :
    split? text = none ↔ ∀ key operator raw, ¬ Shaped text key operator raw := by
  simp only [← split?_eq_some_iff, Option.eq_none_iff_forall_ne_some, Prod.forall, ne_eq]

def dots : List Char := ['.', '.']

/-- What the grammar makes of an expression. -/
inductive Denotes (expression : String) : Except ExpressionError (String × Filter) → Prop where
  | shapeless (h : ∀ key operator raw, ¬ Shaped expression.toList key operator raw) :
      Denotes expression (.error (.malformed expression))
  | empty {key : List Char} {operator : Operator} (h : Shaped expression.toList key operator []) :
      Denotes expression (.error (.missingValue expression))
  | halfOpen {key raw before after : List Char} (h : Shaped expression.toList key .equal raw)
      (hcut : FirstCut dots raw before after) (hend : TrimsTo before [] ∨ TrimsTo after []) :
      Denotes expression (.error (.missingValue expression))
  | interval {key raw before after first last : List Char}
      (h : Shaped expression.toList key .equal raw) (hcut : FirstCut dots raw before after)
      (hbefore : TrimsTo before first) (hafter : TrimsTo after last) (hfirst : first ≠ [])
      (hlast : last ≠ []) :
      Denotes expression
        (.ok (String.ofList key, .range (.between (readValue first) (readValue last))))
  | single {key raw : List Char} {operator : Operator}
      (h : Shaped expression.toList key operator raw) (hraw : raw ≠ [])
      (hwhole : operator = .equal → ¬ dots <:+: raw) :
      Denotes expression (.ok (String.ofList key, operator.build (readValue raw)))

variable {expression : String} {before after first last : List Char}

theorem parse_of_shapeless (h : ∀ key operator raw, ¬ Shaped expression.toList key operator raw) :
    parse expression = .error (.malformed expression) := by
  rw [parse, split?_eq_none_iff.mpr h]

theorem parse_of_shaped (h : Shaped expression.toList key operator raw) :
    parse expression =
      match operator.filter? raw with
      | none => .error (.missingValue expression)
      | some filter => .ok (String.ofList key, filter) := by
  cases hfilter : operator.filter? raw <;> simp only [parse, h.split?_eq, hfilter]

theorem dots_ne_nil : dots ≠ [] := List.cons_ne_nil _ _

theorem readEqual?_of_firstCut (hcut : FirstCut dots raw before after)
    (hbefore : TrimsTo before first) (hafter : TrimsTo after last) :
    readEqual? raw =
      if first.isEmpty || last.isEmpty then none
      else some (.range (.between (readValue first) (readValue last))) := by
  unfold readEqual?
  rw [show ['.', '.'] = dots from rfl, (cutAt_eq_some_iff dots_ne_nil).mpr hcut]
  dsimp only
  rw [trimChars_eq_iff.mpr hbefore, trimChars_eq_iff.mpr hafter]

theorem readEqual?_of_not_isInfix (h : ¬ dots <:+: raw) :
    readEqual? raw = some (.equals (readValue raw)) := by
  unfold readEqual?
  rw [show ['.', '.'] = dots from rfl, (cutAt_eq_none_iff dots_ne_nil).mpr h]

theorem Operator.filter?_equal (hraw : raw ≠ []) :
    Operator.equal.filter? raw = readEqual? raw := by
  unfold Operator.filter?
  rw [if_neg (by rwa [List.isEmpty_iff])]

theorem Operator.filter?_of_ne_nil (operator : Operator) (hraw : raw ≠ [])
    (hwhole : operator = .equal → ¬ dots <:+: raw) :
    operator.filter? raw = some (operator.build (readValue raw)) := by
  cases operator with
  | equal => rw [filter?_equal hraw, readEqual?_of_not_isInfix (hwhole rfl), build]
  | _ =>
      unfold Operator.filter?
      rw [if_neg (by rwa [List.isEmpty_iff])]
      rfl

theorem parse_of_denotes {outcome : Except ExpressionError (String × Filter)}
    (h : Denotes expression outcome) : parse expression = outcome := by
  cases h with
  | shapeless h => exact parse_of_shapeless h
  | empty h =>
      rw [parse_of_shaped h]
      rfl
  | @halfOpen key raw before after h hcut hend =>
      have hempty : ((trimChars before).isEmpty || (trimChars after).isEmpty) = true := by
        rw [Bool.or_eq_true, List.isEmpty_iff, List.isEmpty_iff]
        exact hend.imp trimChars_eq_iff.mpr trimChars_eq_iff.mpr
      rw [parse_of_shaped h, Operator.filter?_equal (hcut.ne_nil dots_ne_nil),
        readEqual?_of_firstCut hcut (trimsTo_trimChars _) (trimsTo_trimChars _), hempty, if_pos rfl]
  | interval h hcut hbefore hafter hfirst hlast =>
      rw [parse_of_shaped h, Operator.filter?_equal (hcut.ne_nil dots_ne_nil),
        readEqual?_of_firstCut hcut hbefore hafter, if_neg (by simp [hfirst, hlast])]
  | single h hraw hwhole => rw [parse_of_shaped h, Operator.filter?_of_ne_nil _ hraw hwhole]

end MetricLayer.Expression
