import MetricLayer.Proofs.Filter.Quotes
import MetricLayer.Proofs.Context.Key
import MetricLayer.Value

/-!
# Written filters

A filter is written as its key, its operator and its values, with a string between double quotes and
any other value in its plain text; an interval has two dots between its ends. Blanks may stand
around each part. Parsing takes such an expression back to the filter, and each value keeps its
kind: quotes are left to strings, and no plain text is taken for that of another value.
-/

namespace MetricLayer.Expression

open Text

variable {key first middle last raw text : List Char} {value : Value}

/-- A text that can stand behind an operator as the value's text. -/
structure IsRaw (text : List Char) : Prop where
  trimmed : Trimmed text
  lineFree : '\n' ∉ text
  head : text.head? ≠ some '='

/-- One that can also stand on either side of the dots of an interval. -/
structure IsToken (text : List Char) : Prop extends IsRaw text where
  ne_nil : text ≠ []
  undotted : ¬ dots <:+: text
  last : text.getLast? ≠ some '.'

theorem IsToken.join (hfirst : IsToken first) (hmiddle : '\n' ∉ middle) (hlast : IsToken last) :
    IsRaw (first ++ (middle ++ last)) where
  trimmed := by
    have hne : middle ++ last ≠ [] := List.append_ne_nil_of_right_ne_nil _ hlast.ne_nil
    constructor
    · rw [List.head?_append_of_ne_nil _ hfirst.ne_nil]
      exact hfirst.trimmed.head
    · rw [List.getLast?_append_of_ne_nil _ hne, List.getLast?_append_of_ne_nil _ hlast.ne_nil]
      exact hlast.trimmed.last
  lineFree := by
    rw [List.mem_append, List.mem_append, not_or, not_or]
    exact ⟨hfirst.lineFree, hmiddle, hlast.lineFree⟩
  head := by
    rw [List.head?_append_of_ne_nil _ hfirst.ne_nil]
    exact hfirst.head

/-- A gap between the parts of an expression: blanks such as spaces and tabs, but no line feed. -/
structure Gap where
  text : List Char
  blank : Blank text
  lineFree : '\n' ∉ text

/-- The gaps around the parts of an expression. -/
structure Spacing where
  beforeKey : Gap
  afterKey : Gap
  afterOperator : Gap
  beforeDots : Gap
  afterDots : Gap
  afterValue : Gap

/-- A string stands between double quotes, every other value is written as its plain text. -/
def writeValue : Value → List Char
  | .string content => quoted '"' content.toList
  | value => value.text.toList

/-- Letters, digits and signs only. -/
structure IsPlain (text : List Char) : Prop where
  ne_nil : text ≠ []
  chars : ∀ c ∈ text, c.isAlphanum = true ∨ c = '-'

instance (text : List Char) : Decidable (IsPlain text) :=
  decidable_of_iff (text ≠ [] ∧ text.all (fun c => c.isAlphanum || c == '-') = true) <| by
    simp only [List.all_eq_true, Bool.or_eq_true, beq_iff_eq]
    exact ⟨fun h => ⟨h.1, h.2⟩, fun h => ⟨h.ne_nil, h.chars⟩⟩

theorem isBlank_of_plainChar {c : Char} (h : c.isAlphanum = true ∨ c = '-') :
    isBlank c = false := by
  rcases h with h | rfl
  · refine not_isBlank_of_keyChar (isKeyChar_iff.mp ?_)
    rw [isKeyChar, h]
    rfl
  · decide

theorem IsPlain.notMem (h : IsPlain text) {c : Char} (hc : c.isAlphanum = false) (hsign : c ≠ '-') :
    c ∉ text := by
  intro hmem
  rcases h.chars c hmem with halphanum | rfl
  · rw [hc] at halphanum
    cases halphanum
  · exact hsign rfl

theorem IsPlain.isToken (h : IsPlain text) : IsToken text where
  trimmed := ⟨fun c hc => isBlank_of_plainChar (h.chars c (List.mem_of_head? hc)),
    fun c hc => isBlank_of_plainChar (h.chars c (List.mem_of_getLast? hc))⟩
  lineFree := h.notMem (by decide) (by decide)
  head := fun hhead => h.notMem (by decide) (by decide) (List.mem_of_head? hhead)
  ne_nil := h.ne_nil
  undotted := fun hinside =>
    h.notMem (by decide) (by decide) (hinside.subset List.mem_cons_self : '.' ∈ text)
  last := fun hlast => h.notMem (by decide) (by decide) (List.mem_of_getLast? hlast)

theorem IsPlain.readValue (h : IsPlain text) : readValue text = Value.ofChars text := by
  have hquote : unquote? text = none := by
    cases text with
    | nil => rfl
    | cons c rest =>
        refine if_neg fun hquote => ?_
        rcases isQuote_iff.mp hquote.1 with rfl | rfl
        · exact h.notMem (by decide) (by decide) List.mem_cons_self
        · exact h.notMem (by decide) (by decide) List.mem_cons_self
  rw [Expression.readValue, hquote]
  dsimp only
  rw [trimChars_eq_iff.mpr (trimsTo_self h.isToken.trimmed)]

/-- The expression of a filter on one side of a value, or on the value itself. -/
def Spacing.single (spacing : Spacing) (key : List Char) (operator : Operator) (value : Value) :
    String :=
  String.ofList (spacing.beforeKey.text ++ (key ++ (spacing.afterKey.text ++ (operator.symbol ++
    (spacing.afterOperator.text ++ (writeValue value ++ spacing.afterValue.text))))))

def Spacing.interval (spacing : Spacing) (key : List Char) (first last : Value) : String :=
  String.ofList (spacing.beforeKey.text ++ (key ++ (spacing.afterKey.text ++
    (Operator.equal.symbol ++ (spacing.afterOperator.text ++ (writeValue first ++
      (spacing.beforeDots.text ++ (dots ++ (spacing.afterDots.text ++ writeValue last))) ++
        spacing.afterValue.text))))))

def tab : Gap := ⟨['\t'], by decide, by decide⟩

end MetricLayer.Expression
