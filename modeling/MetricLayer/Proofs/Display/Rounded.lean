import MetricLayer.Proofs.Display.Edits

/-!
# Displayed numbers are rounded

A display text is an optional minus, the symbol and the digits of the value rounded to the places of
its format. Reading the digits back gives the rounded value: the nearest multiple of the last place,
and an even one if two are equally near.
-/

namespace MetricLayer.Display

open Decimal (Binary NearestEven Numeral digitsValue)

variable {value : Binary} {format : Option ValueFormat} {settings : DisplaySettings}
  {numeral : Numeral}

/-- The places that a format rounds to. -/
def places (format : Option ValueFormat) (settings : DisplaySettings) : Nat :=
  match format with
  | some .integer => 0
  | some .percent => settings.percentDecimals
  | some .currency | none => settings.decimals

/-- What stands between the sign and the digits. -/
def symbol (format : Option ValueFormat) (settings : DisplaySettings) : List Char :=
  match format with
  | some .currency => settings.currencySymbol.toList
  | _ => []

/-- What stands behind the digits. -/
def unit : Option ValueFormat → List Char
  | some .percent => ['%']
  | _ => []

/-- The numeral in a display text: what is left without the symbol behind the sign, the percent sign
and the commas. -/
def numeral? (format : Option ValueFormat) (settings : DisplaySettings) (text : List Char) :
    Option Numeral := do
  let (negative, unsigned) := Numeral.splitMinus text
  let amount ← unsigned.dropPrefix? (symbol format settings)
  let digits ← amount.dropSuffix? (unit format)
  Numeral.ofUnsigned? negative (digits.filter (· ≠ ','))

/-- The value at its places; without a format the zeros at the end of the fraction are dropped. -/
def shown (value : Binary) (format : Option ValueFormat) (settings : DisplaySettings) : Numeral :=
  let numeral := Numeral.ofUnits (value.scaled (places format settings)) (places format settings)
    (decide (value.rounded (places format settings) < 0))
  match format with
  | none => trimmed numeral
  | some _ => numeral

/-- Percentages are not grouped. -/
def digits (format : Option ValueFormat) (numeral : Numeral) : List Char :=
  match format with
  | some .percent => numeral.unsigned
  | _ => groupDigits numeral.whole ++ Numeral.pointed numeral.fraction

/-- The text of a numeral behind its sign. -/
def amount (format : Option ValueFormat) (settings : DisplaySettings) (numeral : Numeral) :
    List Char :=
  symbol format settings ++ (digits format numeral ++ unit format)

theorem wellFormed_shown : (shown value format settings).WellFormed := by
  unfold shown
  dsimp only
  split
  · exact wellFormed_trimmed (Numeral.wellFormed_ofUnits ..)
  · exact Numeral.wellFormed_ofUnits ..

theorem number_shown : (shown value format settings).number =
    value.rounded (places format settings) / 10 ^ places format settings := by
  unfold shown
  dsimp only
  split
  · rw [number_trimmed, Numeral.number_ofUnits_rounded]
  · rw [Numeral.number_ofUnits_rounded]

theorem negative_shown : (shown value format settings).negative =
    decide (value.rounded (places format settings) < 0) := by
  unfold shown
  dsimp only
  split
  · rfl
  · rfl

theorem whole_shown : (shown value format settings).whole =
    Nat.toDigits 10 (value.scaled (places format settings) /
      Decimal.tenTo (places format settings)) := by
  unfold shown
  dsimp only
  split
  · rfl
  · rfl

theorem comma_notMem_unsigned (h : numeral.WellFormed) : ',' ∉ numeral.unsigned := by
  intro hcomma
  rcases List.mem_append.mp hcomma with hwhole | hpointed
  · exact notMem_of_digits h.whole_digits rfl hwhole
  · unfold Numeral.pointed at hpointed
    split at hpointed
    · cases hpointed
    · rcases List.mem_cons.mp hpointed with heq | hfraction
      · cases heq
      · exact notMem_of_digits h.fraction_digits rfl hfraction

theorem filter_digits (h : numeral.WellFormed) :
    (digits format numeral).filter (· ≠ ',') = numeral.unsigned := by
  have hself : numeral.unsigned.filter (· ≠ ',') = numeral.unsigned :=
    List.filter_eq_self.mpr fun c hc =>
      decide_eq_true fun heq => comma_notMem_unsigned h (heq ▸ hc)
  unfold digits
  split
  · exact hself
  · rw [List.filter_append, filter_groupDigits, ← List.filter_append]
    exact hself

theorem head?_digits (h : numeral.WellFormed) : ∀ c ∈ (digits format numeral).head?, c ≠ '-' := by
  unfold digits
  split
  · exact h.head?_unsigned
  · rw [List.head?_append, head?_groupDigits, ← List.head?_append]
    exact h.head?_unsigned

theorem head?_amount (h : numeral.WellFormed) (hsymbol : ∀ c ∈ symbol format settings, c ≠ '-') :
    ∀ c ∈ (amount format settings numeral).head?, c ≠ '-' := by
  have hunit : ∀ c ∈ (unit format).head?, c ≠ '-' := by
    intro c hc
    unfold unit at hc
    split at hc
    · obtain rfl := Option.some.inj hc
      decide
    · cases hc
  exact forall_head?_append (fun c hc => hsymbol c (List.mem_of_head? hc))
    (forall_head?_append (head?_digits h) hunit)

theorem numeral?_amount (h : numeral.WellFormed)
    (hsymbol : ∀ c ∈ symbol format settings, c ≠ '-') :
    numeral? format settings
      (Numeral.minus numeral.negative ++ amount format settings numeral) = some numeral := by
  have hamount : (amount format settings numeral).dropPrefix? (symbol format settings) =
      some (digits format numeral ++ unit format) :=
    List.dropPrefix?_append_of_beq _ (beq_self_eq_true _)
  have hdigits : (digits format numeral ++ unit format).dropSuffix? (unit format) =
      some (digits format numeral) :=
    List.dropSuffix?_eq_some_iff.mpr ⟨unit format, rfl, beq_self_eq_true _⟩
  rw [numeral?, Numeral.splitMinus_minus (head?_amount h hsymbol)]
  dsimp only
  rw [hamount, Option.bind_eq_bind, Option.bind_some, hdigits, Option.bind_some,
    filter_digits h, h.ofUnsigned?_eq]

theorem any_digits (format : Option ValueFormat) (numeral : Numeral) :
    (digits format numeral).any isNonzeroDigit =
      (numeral.whole ++ numeral.fraction).any isNonzeroDigit := by
  have hpointed : (Numeral.pointed numeral.fraction).any isNonzeroDigit =
      numeral.fraction.any isNonzeroDigit := by
    unfold Numeral.pointed
    split
    · rename_i hempty
      rw [List.isEmpty_iff.mp hempty]
    · rfl
  unfold digits
  split
  · rw [Numeral.unsigned, List.any_append, List.any_append, hpointed]
  · rw [List.any_append, List.any_append, any_groupDigits, hpointed]

/-- The symbol and the digits of the number are all that can hold a digit above zero. -/
theorem any_amount_eq (format : Option ValueFormat) (settings : DisplaySettings)
    (numeral : Numeral) :
    (amount format settings numeral).any isNonzeroDigit =
      ((symbol format settings).any isNonzeroDigit ||
        (numeral.whole ++ numeral.fraction).any isNonzeroDigit) := by
  have hunit : (unit format).any isNonzeroDigit = false := by
    unfold unit
    split
    · rfl
    · rfl
  rw [amount, List.any_append, List.any_append, hunit, Bool.or_false, any_digits]

theorem any_amount (h : numeral.WellFormed)
    (hsymbol : ∀ c ∈ symbol format settings, c.isDigit = false) :
    (amount format settings numeral).any isNonzeroDigit = true ↔ numeral.number ≠ 0 := by
  have hdigits : ∀ c ∈ numeral.whole ++ numeral.fraction, c.isDigit = true :=
    List.forall_mem_append.mpr ⟨h.whole_digits, h.fraction_digits⟩
  rw [any_amount_eq, any_isNonzeroDigit_of_no_digit hsymbol, Bool.false_or,
    any_isNonzeroDigit_iff hdigits, Ne, Ne, Numeral.number_eq_zero_iff]

/-- The minus that is written first. -/
def sign (value : Binary) : Option ValueFormat → Bool
  | some .currency => isBelowZero value
  | _ => value.negative

theorem body_eq (value : Binary) (format : Option ValueFormat) (settings : DisplaySettings) :
    body value format settings = Numeral.minus (sign value format) ++
      amount format settings (shown value format settings) := by
  have hwell : ∀ negative places,
      (Numeral.ofUnits (value.scaled places) places negative).WellFormed :=
    fun negative places => Numeral.wellFormed_ofUnits _ _ negative
  cases format with
  | none =>
      rw [body, Binary.fixed_eq, trimFraction_text (hwell ..),
        groupThousands_text (wellFormed_trimmed (hwell ..))]
      exact congrArg _ (List.append_nil _).symm
  | some format =>
      cases format with
      | currency =>
          rw [body, Binary.fixed_eq, groupThousands_text (Numeral.wellFormed_ofUnits ..),
            List.append_assoc]
          exact congrArg (fun rest => Numeral.minus (isBelowZero value) ++
            (settings.currencySymbol.toList ++ rest)) (List.append_nil _).symm
      | integer =>
          change groupThousands (value.fixed 0) = _
          rw [Binary.fixed_eq, groupThousands_text (hwell ..)]
          exact congrArg _ (List.append_nil _).symm
      | percent =>
          change value.fixed settings.percentDecimals ++ ['%'] = _
          rw [Binary.fixed_eq, Numeral.text, List.append_assoc]
          rfl

/-- The negative zero is below zero for no format once it is rounded. -/
theorem sign_iff {places : Nat} : (sign value format = true ∧ value.scaled places ≠ 0) ↔
    value.rounded places < 0 := by
  rw [value.rounded_neg_iff]
  refine and_congr_left fun hscaled => ?_
  unfold sign
  split
  · have hsignificand : value.significand ≠ 0 := fun hzero =>
      hscaled (value.scaled_of_significand_eq_zero hzero places)
    rw [isBelowZero, Bool.and_eq_true, bne_iff_ne, and_iff_left hsignificand]
  · rfl

theorem dropZeroSign_body (hsymbol : ∀ c ∈ symbol format settings, c.isDigit = false ∧ c ≠ '-') :
    dropZeroSign (body value format settings) =
      Numeral.minus (shown value format settings).negative ++
        amount format settings (shown value format settings) := by
  have hwell : (shown value format settings).WellFormed := wellFormed_shown
  have hany := any_amount hwell fun c hc => (hsymbol c hc).1
  have hnegative : (sign value format &&
      (amount format settings (shown value format settings)).any isNonzeroDigit) =
        (shown value format settings).negative := by
    have hpos : (10 : ℚ) ^ places format settings ≠ 0 := by positivity
    have hsize := value.natAbs_rounded (places format settings)
    rw [negative_shown, Bool.eq_iff_iff, Bool.and_eq_true, decide_eq_true_iff, hany, number_shown,
      Ne, div_eq_zero_iff, or_iff_left hpos, Int.cast_eq_zero, ← Int.natAbs_eq_zero, hsize]
    exact sign_iff
  rw [body_eq, dropZeroSign_minus (head?_amount hwell fun c hc => (hsymbol c hc).2), hnegative]

/-- **The digits of a display text are the correctly rounded value.** A finite value has a text if
the symbol has no digit and no minus, and the numeral in the text denotes the value rounded to the
places of the format. The minus stands there just when the rounded value is below zero, the whole
digits are complete, and the fraction has all of its places or, without a format, no zero at its
end. -/
theorem text?_rounded {x : Float} (hx : Binary.ofFloat? x = some value)
    (hsymbol : ∀ c ∈ settings.currencySymbol.toList, c.isDigit = false ∧ c ≠ '-')
    (format : Option ValueFormat) :
    ∃ text numeral, ∃ units : ℤ, text? (some x) format settings = some text ∧
      numeral? format settings text.toList = some numeral ∧
      (∀ whole : ℤ, NearestEven (value.toRat * 10 ^ places format settings) whole ↔
        whole = units) ∧
      numeral.number = units / 10 ^ places format settings ∧
      (text.toList.head? = some '-' ↔ units < 0) ∧
      numeral.whole = Nat.toDigits 10 (units.natAbs / 10 ^ places format settings) ∧
      match format with
      | some _ => numeral.fraction.length = places format settings
      | none => numeral.fraction.getLast? ≠ some '0' := by
  have hshown : ∀ c ∈ symbol format settings, c.isDigit = false ∧ c ≠ '-' := by
    unfold symbol
    split
    · exact hsymbol
    · exact List.forall_mem_nil _
  have hwell : (shown value format settings).WellFormed := wellFormed_shown
  have hhead := head?_amount hwell fun c hc => (hshown c hc).2
  have htext : (String.ofList (dropZeroSign (body value format settings))).toList =
      Numeral.minus (shown value format settings).negative ++
        amount format settings (shown value format settings) := by
    rw [String.toList_ofList, dropZeroSign_body hshown]
  refine ⟨String.ofList (dropZeroSign (body value format settings)), shown value format settings,
    value.rounded (places format settings), ?_, ?_, fun _ => value.nearestEven_iff _, number_shown,
    ?_, ?_, ?_⟩
  · rw [text?, Option.bind_eq_bind, Option.bind_some, hx]
    rfl
  · rw [htext, numeral?_amount hwell fun c hc => (hshown c hc).2]
  · rw [htext, negative_shown, Numeral.head?_minus hhead, decide_eq_true_iff]
  · rw [whole_shown, value.natAbs_rounded]
    rfl
  · cases format with
    | none => exact fun hzero => ne_of_mem_getLast?_dropTrailing hzero rfl
    | some format => exact Decimal.length_fractionDigits ..

/-- Halfway between `-1999.12` and `-1999.13`, the even one is shown. -/
theorem text?_rounded_halfway :
    text? (some (-1999.125)) (some .currency) ⟨"€", 2, 1⟩ = some "-€1,999.12" ∧
      NearestEven (Binary.toRat ⟨true, 8792244731510784, -42⟩ * 10 ^ 2) (-199912) := by
  have hform : Binary.ofFloat? (-1999.125) = some ⟨true, 8792244731510784, -42⟩ := by
    decide +kernel
  have hsymbol : ∀ c ∈ "€".toList, c.isDigit = false ∧ c ≠ '-' :=
    List.forall_mem_singleton.mpr ⟨rfl, by decide⟩
  have hshown : text? (some (-1999.125)) (some .currency) ⟨"€", 2, 1⟩ = some "-€1,999.12" := by
    decide +kernel
  have hread : numeral? (some .currency) ⟨"€", 2, 1⟩ "-€1,999.12".toList =
      some ⟨true, ['1', '9', '9', '9'], ['1', '2']⟩ := by decide +kernel
  have hnumber : Numeral.number ⟨true, ['1', '9', '9', '9'], ['1', '2']⟩ = -(199912 / 10 ^ 2) := rfl
  obtain ⟨text, numeral, units, htext, hnumeral, hnear, hunits, -⟩ :=
    @text?_rounded _ ⟨"€", 2, 1⟩ _ hform hsymbol (some .currency)
  obtain rfl := Option.some.inj (htext.symm.trans hshown)
  obtain rfl := Option.some.inj (hnumeral.symm.trans hread)
  have hcast : (units : ℚ) = -199912 := by
    rw [hnumber, places] at hunits
    linarith
  obtain rfl : units = -199912 := by exact_mod_cast hcast
  exact ⟨hshown, (hnear _).mpr rfl⟩

end MetricLayer.Display
