import MetricLayer.Proofs.Json.ReadBack

/-!
# Numerals

A numeral is a sign, digits, a fraction and an exponent. Its mark may be a capital letter and the
sign of an exponent may be missing, so a numeral has several texts; the reader takes each of them
apart into the same numeral, unless what follows prolongs the text.
-/

namespace MetricLayer.Json.Numeral

open Decimal

def fractionChars : Option (List Char) → List Char
  | none => []
  | some digits => '.' :: digits

/-- The texts of an exponent. Only a plus may be left out. -/
inductive ExponentText : Option (Bool × List Char) → List Char → Prop where
  | none : ExponentText none []
  | minus {mark : Char} {digits : List Char} (hmark : mark = 'e' ∨ mark = 'E') :
      ExponentText (some (true, digits)) (mark :: '-' :: digits)
  | plus {mark : Char} {digits : List Char} (hmark : mark = 'e' ∨ mark = 'E') :
      ExponentText (some (false, digits)) (mark :: '+' :: digits)
  | unsigned {mark : Char} {digits : List Char} (hmark : mark = 'e' ∨ mark = 'E') :
      ExponentText (some (false, digits)) (mark :: digits)

/-- One digit at least. -/
structure IsDigits (digits : List Char) : Prop where
  ne_nil : digits ≠ []
  isDigit : ∀ c ∈ digits, c.isDigit = true

structure WellFormed (numeral : Numeral) : Prop where
  whole : IsWhole numeral.whole
  fraction : ∀ digits ∈ numeral.fraction, IsDigits digits
  exponent : ∀ entry ∈ numeral.exponent, IsDigits entry.2

/-- The numeral with that text for its exponent. -/
def withExponent (numeral : Numeral) (exponent : List Char) : List Char :=
  (if numeral.negative then ['-'] else []) ++
    (numeral.whole ++ (fractionChars numeral.fraction ++ exponent))

/-- The texts of a numeral. -/
def HasText (numeral : Numeral) (text : List Char) : Prop :=
  ∃ exponent, ExponentText numeral.exponent exponent ∧ text = numeral.withExponent exponent

def exponentChars : Option (Bool × List Char) → List Char
  | none => []
  | some (down, digits) => 'e' :: (if down then '-' else '+') :: digits

theorem exponentText_exponentChars (exponent : Option (Bool × List Char)) :
    ExponentText exponent (exponentChars exponent) := by
  match exponent with
  | none => exact .none
  | some (true, digits) => exact .minus (.inl rfl)
  | some (false, digits) => exact .plus (.inl rfl)

/-- The text of a numeral, with a sign in front of every exponent. -/
def chars (numeral : Numeral) : List Char :=
  (if numeral.negative then ['-'] else []) ++
    (numeral.whole ++ (fractionChars numeral.fraction ++ exponentChars numeral.exponent))

theorem hasText_chars (numeral : Numeral) : numeral.HasText numeral.chars :=
  ⟨_, exponentText_exponentChars numeral.exponent, rfl⟩

section Parts

variable {fraction : Option (List Char)} {exponent : Option (Bool × List Char)}
  {text rest : List Char}

/-- What follows the digits of a numeral is no digit, and a point only if it starts a fraction. -/
theorem ExponentText.head (h : ExponentText exponent text) (hrest : Stops rest) :
    ∀ c ∈ (text ++ rest).head?, c.isDigit = false ∧ c ≠ '.' := by
  intro c hc
  cases h with
  | none =>
      refine ⟨isDigit_eq_false_of_stops hrest c hc, ?_⟩
      rintro rfl
      cases hrest '.' hc
  | minus hmark =>
      obtain rfl := Option.some.inj hc
      rcases hmark with rfl | rfl <;> decide
  | plus hmark =>
      obtain rfl := Option.some.inj hc
      rcases hmark with rfl | rfl <;> decide
  | unsigned hmark =>
      obtain rfl := Option.some.inj hc
      rcases hmark with rfl | rfl <;> decide

theorem fractionChars_head (h : ExponentText exponent text) (hrest : Stops rest) :
    ∀ c ∈ (fractionChars fraction ++ (text ++ rest)).head?, c.isDigit = false := by
  cases fraction with
  | none => exact fun c hc => (h.head hrest c hc).1
  | some digits =>
      intro c hc
      obtain rfl := Option.some.inj hc
      rfl

/-- The digits after a mark and a sign are the exponent. -/
theorem splitExponent?_of_splitSign {mark : Char} {after digits : List Char} {down : Bool}
    (hmark : mark = 'e' ∨ mark = 'E') (hsign : splitSign after = (down, digits ++ rest))
    (hdigits : IsDigits digits) (hrest : Stops rest) :
    splitExponent? (mark :: after) = some (some (down, digits), rest) := by
  have hhead := isDigit_eq_false_of_stops hrest
  have hne : digits.isEmpty = false := List.isEmpty_eq_false_iff.mpr hdigits.ne_nil
  rw [splitExponent?, if_pos hmark, hsign]
  dsimp only
  rw [takeWhile_append_of_stop hdigits.isDigit hhead,
    dropWhile_append_of_stop hdigits.isDigit hhead, hne, if_neg Bool.false_ne_true]

theorem IsDigits.splitSign_append {digits : List Char} (h : IsDigits digits) (rest : List Char) :
    splitSign (digits ++ rest) = (false, digits ++ rest) := by
  obtain ⟨c, tail, rfl⟩ := List.exists_cons_of_ne_nil h.ne_nil
  have hc : c.isDigit = true := h.isDigit c List.mem_cons_self
  rw [List.cons_append, splitSign.eq_def]
  split
  · rename_i heq
    rw [(List.cons.inj heq).1] at hc
    cases hc
  · rename_i heq
    rw [(List.cons.inj heq).1] at hc
    cases hc
  · rfl

theorem ExponentText.splitExponent? (h : ExponentText exponent text)
    (hexponent : ∀ entry ∈ exponent, IsDigits entry.2) (hrest : Stops rest) :
    Numeral.splitExponent? (text ++ rest) = some (exponent, rest) := by
  cases h with
  | none => exact splitExponent?_of_stops hrest
  | minus hmark => exact splitExponent?_of_splitSign hmark rfl (hexponent _ rfl) hrest
  | plus hmark => exact splitExponent?_of_splitSign hmark rfl (hexponent _ rfl) hrest
  | unsigned hmark =>
      have hdigits := hexponent _ rfl
      exact splitExponent?_of_splitSign hmark (hdigits.splitSign_append rest) hdigits hrest

theorem ExponentText.splitFraction? (h : ExponentText exponent text)
    (hfraction : ∀ digits ∈ fraction, IsDigits digits) (hrest : Stops rest) :
    Numeral.splitFraction? (fractionChars fraction ++ (text ++ rest)) =
      some (fraction, text ++ rest) := by
  cases fraction with
  | none =>
      rw [fractionChars, List.nil_append, Numeral.splitFraction?.eq_def]
      split
      · rename_i heq
        exact absurd rfl (h.head hrest '.' (by rw [heq]; rfl)).2
      · rfl
  | some digits =>
      have hdigits := hfraction _ rfl
      have hhead : ∀ c ∈ (text ++ rest).head?, c.isDigit = false :=
        fun c hc => (h.head hrest c hc).1
      have hne : digits.isEmpty = false := List.isEmpty_eq_false_iff.mpr hdigits.ne_nil
      rw [fractionChars, List.cons_append, Numeral.splitFraction?,
        takeWhile_append_of_stop hdigits.isDigit hhead,
        dropWhile_append_of_stop hdigits.isDigit hhead]
      simp [hne]

end Parts

/-- Every text of a numeral is read as that numeral. -/
theorem WellFormed.value?_of_hasText {numeral : Numeral} {text rest : List Char}
    (h : numeral.WellFormed) (htext : numeral.HasText text) (levels : Nat) (hrest : Stops rest) :
    Json.value? levels (text ++ rest) = numeral.value?.map fun value => (value, rest) := by
  obtain ⟨exponent, hexponent, rfl⟩ := htext
  have hread := h.whole.value? (fractionChars_head hexponent hrest)
    (hexponent.splitFraction? h.fraction hrest) (hexponent.splitExponent? h.exponent hrest)
    numeral.negative levels
  rw [withExponent, List.append_assoc, List.append_assoc, List.append_assoc]
  exact hread

/-- The whole number, unless there is a fraction or an exponent or it is a negative zero. -/
def integer? (numeral : Numeral) : Option Int :=
  match numeral.fraction, numeral.exponent, numeral.negative with
  | none, none, false => some (Nat.ofDigitChars 10 numeral.whole 0)
  | none, none, true =>
      if numeral.whole = ['0'] then none else some (-(Nat.ofDigitChars 10 numeral.whole 0))
  | _, _, _ => none

variable {numeral : Numeral}

/-- Only the lone zero is zero. -/
theorem digitsValue_pos {whole : List Char} (h : IsWhole whole) (hne : whole ≠ ['0']) :
    0 < Decimal.digitsValue whole := by
  obtain ⟨c, tail, rfl, hc⟩ := h.exists_cons
  have hzero : c.toNat ≠ '0'.toNat := fun heq =>
    hne (h.lead (congrArg some (Char.toNat_inj.mp heq)))
  have hdigit : 0 < Decimal.digitsValue [c] := by
    have hle := (Char.isDigit_iff_toNat.mp hc).1
    have hvalue : Decimal.digitsValue [c] = c.toNat - '0'.toNat := by
      simp [Decimal.digitsValue, Decimal.digitValue]
    omega
  have hvalue : Decimal.digitsValue (c :: tail) =
      Decimal.tenTo tail.length * Decimal.digitsValue [c] + Decimal.digitsValue tail :=
    Decimal.digitsValue_append [c] tail
  have hpos := Nat.mul_pos (Decimal.tenTo_pos tail.length) hdigit
  omega

theorem toInt_bounds (n : Int64) : int64Min ≤ n.toInt ∧ n.toInt ≤ uint64Max := by
  have hlow : int64Min ≤ n.toInt := n.minValue_le_toInt
  have hhigh := n.toInt_lt
  rw [uint64Max]
  omega

theorem value?_cases (hformed : numeral.WellFormed) :
    (∃ n, numeral.integer? = some n ∧ numeral.value? = some (.int n)) ∨
      (∀ n : Int64, numeral.integer? ≠ some n.toInt) ∧
        numeral.value? = numeral.float?.map .float := by
  obtain ⟨negative, whole, fraction, exponent⟩ := numeral
  match fraction, exponent, negative with
  | none, none, false =>
      by_cases hfits : (Decimal.digitsValue whole : Int) ≤ uint64Max
      · exact .inl ⟨_, rfl, if_pos hfits⟩
      · refine .inr ⟨fun n hn => hfits ?_, if_neg hfits⟩
        have hn : (Decimal.digitsValue whole : Int) = n.toInt := Option.some.inj hn
        exact hn ▸ (toInt_bounds n).2
  | none, none, true =>
      by_cases hzero : whole = ['0']
      · subst hzero
        exact .inr ⟨nofun, rfl⟩
      · have hpos : 0 < (Decimal.digitsValue whole : Int) :=
          Int.natCast_pos.mpr (digitsValue_pos hformed.whole hzero)
        by_cases hfits : -(Decimal.digitsValue whole : Int) ≥ int64Min
        · exact .inl ⟨_, if_neg hzero, if_pos ⟨hpos, hfits⟩⟩
        · refine .inr ⟨fun n hn => hfits ?_, if_neg fun h => hfits h.2⟩
          have hn : -(Decimal.digitsValue whole : Int) = n.toInt :=
            Option.some.inj ((if_neg hzero).symm.trans hn)
          exact hn ▸ (toInt_bounds n).1
  | none, some _, _ => exact .inr ⟨nofun, rfl⟩
  | some _, _, _ => exact .inr ⟨nofun, rfl⟩

end MetricLayer.Json.Numeral
