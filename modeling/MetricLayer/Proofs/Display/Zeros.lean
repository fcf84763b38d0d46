import MetricLayer.Proofs.Display.Rounded

/-!
# Values that are shown as zero

A value that rounds to zero is to be shown like zero itself. Whether the minus goes is read off the
text, in which the symbol already stands between the minus and the digits: a symbol with a digit
above zero keeps the minus of a small negative value, and one that starts with a minus loses it.
-/

namespace MetricLayer.Display

open Decimal (Binary NearestEven Numeral)

variable {value : Binary} {format : Option ValueFormat} {settings : DisplaySettings}
  {text : List Char}

theorem dropZeroSign_cons_minus (text : List Char) :
    dropZeroSign ('-' :: text) = if text.any isNonzeroDigit then '-' :: text else text := rfl

theorem length_dropZeroSign_le (text : List Char) : (dropZeroSign text).length ≤ text.length := by
  unfold dropZeroSign
  split
  · split
    · exact le_rfl
    · exact Nat.le_succ _
  · exact le_rfl

theorem dropZeroSign_eq_self_iff :
    dropZeroSign text = text ↔ (text.head? = some '-' → text.any isNonzeroDigit = true) := by
  unfold dropZeroSign
  split
  · rename_i rest
    have hany : ('-' :: rest).any isNonzeroDigit = rest.any isNonzeroDigit := rfl
    have hne : rest ≠ '-' :: rest := (List.cons_ne_self _ _).symm
    rw [hany, List.head?_cons, eq_self_iff_true, true_imp_iff]
    split
    · rename_i hnonzero
      exact iff_of_true rfl hnonzero
    · rename_i hzero
      exact iff_of_false hne hzero
  · rename_i hminus
    refine iff_of_true rfl fun hhead => ?_
    obtain ⟨rest, hrest⟩ := List.head?_eq_some_iff.mp hhead
    exact absurd hrest (hminus rest)

section Minus

variable (negative : Bool)

/-- A minus in front makes no difference just if the text has neither a digit above zero nor a minus
of its own. -/
theorem dropZeroSign_minus_eq_iff :
    dropZeroSign (Numeral.minus negative ++ text) = dropZeroSign text ↔
      (negative = true → text.any isNonzeroDigit = false ∧ text.head? ≠ some '-') := by
  cases negative with
  | false => exact iff_of_true rfl nofun
  | true =>
      rw [eq_self_iff_true, true_imp_iff, Numeral.minus, if_pos rfl, List.singleton_append,
        dropZeroSign_cons_minus]
      split
      · rename_i hnonzero
        refine iff_of_false (fun heq => ?_) fun h => Bool.false_ne_true (h.1.symm.trans hnonzero)
        have hlength := length_dropZeroSign_le text
        rw [← heq, List.length_cons] at hlength
        exact Nat.not_succ_le_self _ hlength
      · rename_i hzero
        have hfalse := Bool.eq_false_iff.mpr hzero
        rw [eq_comm, dropZeroSign_eq_self_iff, hfalse, and_iff_right rfl]
        exact imp_congr_right fun _ => iff_of_false Bool.false_ne_true id

/-- The text is left as it stands behind the minus. -/
theorem dropZeroSign_minus_eq_self_iff : dropZeroSign (Numeral.minus negative ++ text) = text ↔
    (negative = true → text.any isNonzeroDigit = false) ∧
      (negative = false → text.head? = some '-' → text.any isNonzeroDigit = true) := by
  cases negative with
  | false =>
      rw [eq_self_iff_true, true_imp_iff, and_iff_right nofun]
      exact dropZeroSign_eq_self_iff
  | true =>
      rw [eq_self_iff_true, true_imp_iff, and_iff_left nofun, Numeral.minus, if_pos rfl,
        List.singleton_append, dropZeroSign_cons_minus]
      split
      · rename_i hnonzero
        exact iff_of_false (List.cons_ne_self _ _) fun hzero =>
          Bool.false_ne_true (hzero.symm.trans hnonzero)
      · rename_i hzero
        exact iff_of_true rfl (Bool.eq_false_iff.mpr hzero)

end Minus

/-- The places of a zero, which are dropped without a format. -/
def zeroPlaces (format : Option ValueFormat) (settings : DisplaySettings) : List Char :=
  match format with
  | none => []
  | some _ => List.replicate (places format settings) '0'

/-- The symbol followed by the digits of zero, and the percent sign if there is one. -/
def zeroAmount (format : Option ValueFormat) (settings : DisplaySettings) : List Char :=
  symbol format settings ++ ('0' :: Numeral.pointed (zeroPlaces format settings) ++ unit format)

theorem fractionDigits_zero (places : Nat) :
    Decimal.fractionDigits 0 places = List.replicate places '0' := by
  cases places with
  | zero => rfl
  | succ places =>
      rw [Decimal.fractionDigits, if_neg (Nat.succ_ne_zero _), Nat.zero_mod, Nat.toDigits_zero]
      exact List.replicate_succ'.symm

theorem ofUnits_zero (places : Nat) (negative : Bool) :
    Numeral.ofUnits 0 places negative = ⟨negative, ['0'], List.replicate places '0'⟩ := by
  rw [Numeral.ofUnits, Nat.zero_div, Nat.toDigits_zero, fractionDigits_zero]

theorem shown_of_rounded (h : value.rounded (places format settings) = 0) :
    shown value format settings = ⟨false, ['0'], zeroPlaces format settings⟩ := by
  have hscaled : value.scaled (places format settings) = 0 := by
    rw [← value.natAbs_rounded, h, Int.natAbs_zero]
  unfold shown
  rw [hscaled, h, ofUnits_zero]
  cases format with
  | none => exact congrArg (Numeral.mk false ['0']) (@dropTrailing_append '0' [] _ nofun)
  | some format => rfl

theorem amount_zero (format : Option ValueFormat) (settings : DisplaySettings) :
    amount format settings ⟨false, ['0'], zeroPlaces format settings⟩ =
      zeroAmount format settings := by
  unfold amount zeroAmount digits
  split
  · rfl
  · rfl

theorem any_zeroAmount (format : Option ValueFormat) (settings : DisplaySettings) :
    (zeroAmount format settings).any isNonzeroDigit =
      (symbol format settings).any isNonzeroDigit := by
  have hplaces : (zeroPlaces format settings).any isNonzeroDigit = false := by
    unfold zeroPlaces
    split
    · rfl
    · rw [List.any_replicate]
      exact ite_self _
  rw [← amount_zero, any_amount_eq, List.any_append, hplaces, Bool.or_false]
  exact Bool.or_false _

theorem head?_zeroAmount (format : Option ValueFormat) (settings : DisplaySettings) :
    (zeroAmount format settings).head? = some '-' ↔
      (symbol format settings).head? = some '-' := by
  have hzero : '0' ≠ '-' := by decide
  rw [zeroAmount]
  cases symbol format settings with
  | nil => exact iff_of_false (fun h => hzero (Option.some.inj h)) nofun
  | cons c rest => exact Iff.rfl

theorem isBelowZero_iff (value : Binary) : isBelowZero value = true ↔ value.toRat < 0 := by
  rw [isBelowZero, Bool.and_eq_true, bne_iff_ne, Binary.toRat]
  cases value.negative with
  | false =>
      rw [if_neg Bool.false_ne_true]
      exact iff_of_false (fun h => Bool.false_ne_true h.1) (not_lt.mpr value.magnitude_nonneg)
  | true =>
      rw [if_pos rfl, neg_lt_zero, and_iff_right rfl]
      refine ⟨Binary.magnitude_pos, fun hpos hzero => hpos.ne' ?_⟩
      rw [Binary.magnitude, hzero, Nat.cast_zero, zero_mul]

/-- Only a currency has a symbol, and its minus is that of the number. -/
theorem sign_iff_of_symbol (h : symbol format settings ≠ []) :
    sign value format = true ↔ value.toRat < 0 := by
  obtain rfl : format = some .currency := by
    unfold symbol at h
    split at h
    · rfl
    · exact absurd rfl h
  exact isBelowZero_iff value

/-- A text is put together from the minus and the zero of the format. -/
theorem text?_of_rounded {x : Float} (hx : Binary.ofFloat? x = some value)
    (h : value.rounded (places format settings) = 0) :
    text? (some x) format settings = some (String.ofList (dropZeroSign
      (Numeral.minus (sign value format) ++ zeroAmount format settings))) := by
  have hbody := body_eq value format settings
  rw [shown_of_rounded h, amount_zero] at hbody
  rw [text?, Option.bind_eq_bind, Option.bind_some, hx, Option.bind_eq_bind, Option.bind_some,
    hbody]

theorem text?_zero (format : Option ValueFormat) (settings : DisplaySettings) :
    text? (some 0.0) format settings =
      some (String.ofList (dropZeroSign (zeroAmount format settings))) := by
  have hform : Binary.ofFloat? 0.0 = some ⟨false, 0, -1074⟩ := by decide +kernel
  have hrounded : Binary.rounded ⟨false, 0, -1074⟩ (places format settings) = 0 :=
    congrArg Nat.cast (Binary.scaled_of_significand_eq_zero rfl _)
  have hsign : sign ⟨false, 0, -1074⟩ format = false := by
    unfold sign
    split
    · rfl
    · rfl
  rw [text?_of_rounded hform hrounded, hsign]
  rfl

/-- **Values that round to zero.** A finite value that rounds to zero has the text of zero in its
format, unless it is below zero and the symbol has a digit above zero or starts with a minus. That
text is the symbol followed by the digits of zero, unless the value is below zero and the symbol has
a digit above zero, or it is not and the symbol starts with a minus and has no such digit. Formats
other than a currency have no symbol. -/
theorem text?_rounded_zero {x : Float} (hx : Binary.ofFloat? x = some value)
    (hzero : NearestEven (value.toRat * 10 ^ places format settings) 0) :
    ∃ text zero, text? (some x) format settings = some text ∧
      text? (some 0.0) format settings = some zero ∧
      (text = zero ↔ (value.toRat < 0 → (symbol format settings).any isNonzeroDigit = false ∧
        (symbol format settings).head? ≠ some '-')) ∧
      (text.toList = zeroAmount format settings ↔
        (value.toRat < 0 → (symbol format settings).any isNonzeroDigit = false) ∧
        (0 ≤ value.toRat → (symbol format settings).head? = some '-' →
          (symbol format settings).any isNonzeroDigit = true)) := by
  have hrounded := ((value.nearestEven_iff _).mp hzero).symm
  have hany := any_zeroAmount format settings
  have hhead := head?_zeroAmount format settings
  refine ⟨_, _, text?_of_rounded hx hrounded, text?_zero format settings, ?_, ?_⟩
  · rw [String.ofList_inj, dropZeroSign_minus_eq_iff, hany, Ne, hhead]
    by_cases hsymbol : symbol format settings = []
    · rw [hsymbol]
      exact iff_of_true (fun _ => ⟨rfl, nofun⟩) fun _ => ⟨rfl, nofun⟩
    · rw [sign_iff_of_symbol hsymbol]
  · rw [String.toList_ofList, dropZeroSign_minus_eq_self_iff, hany, hhead]
    by_cases hsymbol : symbol format settings = []
    · rw [hsymbol]
      exact iff_of_true ⟨fun _ => rfl, fun _ => nofun⟩ ⟨fun _ => rfl, fun _ => nofun⟩
    · have hnot : sign value format = false ↔ 0 ≤ value.toRat := by
        rw [← Bool.not_eq_true, sign_iff_of_symbol hsymbol, not_lt]
      rw [sign_iff_of_symbol hsymbol, hnot]

/-- A symbol with a digit keeps the minus of a tenth of a cent. -/
theorem text?_rounded_zero_digitInSymbol :
    Binary.ofFloat? (-0.001) = some ⟨true, 4611686018427388, -62⟩ ∧
      NearestEven (Binary.toRat ⟨true, 4611686018427388, -62⟩ * 10 ^ 2) 0 ∧
      text? (some (-0.001)) (some .currency) ⟨"R1", 2, 1⟩ = some "-R10.00" ∧
      text? (some 0.0) (some .currency) ⟨"R1", 2, 1⟩ ≠ some "-R10.00" := by
  have hform : Binary.ofFloat? (-0.001) = some ⟨true, 4611686018427388, -62⟩ := by
    decide +kernel
  have hzero : NearestEven (Binary.toRat ⟨true, 4611686018427388, -62⟩ * 10 ^ 2) 0 :=
    (Binary.nearestEven_iff _ 2).mpr (by decide +kernel)
  have hshown : text? (some (-0.001)) (some .currency) ⟨"R1", 2, 1⟩ = some "-R10.00" := by
    decide +kernel
  have hbelow : Binary.toRat ⟨true, 4611686018427388, -62⟩ < 0 :=
    (isBelowZero_iff _).mp (by decide +kernel)
  obtain ⟨text, zero, htext, hzerotext, hequal, -⟩ :=
    @text?_rounded_zero _ (some .currency) ⟨"R1", 2, 1⟩ _ hform hzero
  refine ⟨hform, hzero, hshown, fun hsame => ?_⟩
  have heq : text = zero :=
    Option.some.inj (htext.symm.trans (hshown.trans (hsame.symm.trans hzerotext)))
  have hdigit : (symbol (some .currency) ⟨"R1", 2, 1⟩).any isNonzeroDigit = true := by
    decide +kernel
  exact Bool.false_ne_true ((hequal.mp heq hbelow).1.symm.trans hdigit)

end MetricLayer.Display
