import MetricLayer.Json.Writer
import MetricLayer.Proofs.Decimal.Digits
import MetricLayer.Proofs.Decimal.ShortestDigits

/-!
# The JSON text of a double

Read as a numeral, the JSON text of a finite double denotes a decimal that names it, wherever the
point stands. So two doubles with one text are the same double. The text always has a point or an
exponent, so it is not the text of a whole number.
-/

namespace MetricLayer.Decimal

/-- The digits after a point, and what follows them. -/
def splitPoint : List Char → List Char × List Char
  | '.' :: text => (text.takeWhile Char.isDigit, text.dropWhile Char.isDigit)
  | text => ([], text)

/-- The decimal that a numeral without a sign denotes. -/
def decimalOf? (text : List Char) : Option ℚ :=
  let whole := text.takeWhile Char.isDigit
  let (fraction, rest) := splitPoint (text.dropWhile Char.isDigit)
  (readExponent? rest).map fun exponent =>
    (digitsValue (whole ++ fraction) : ℚ) * 10 ^ (exponent - (fraction.length : Int))

section Numerals

variable {whole fraction rest : List Char} {exponent : Int}

theorem head_not_digit_of_exponent (h : readExponent? rest = some exponent) :
    ∀ c ∈ rest.head?, c.isDigit = false := by
  intro c hc
  cases rest with
  | nil => cases hc
  | cons head rest =>
      obtain rfl := Option.some.inj hc
      rw [readExponent?] at h
      split at h
      · rename_i heq
        rcases heq with rfl | rfl <;> rfl
      · cases h

theorem decimalOf?_point (hwhole : ∀ c ∈ whole, c.isDigit = true)
    (hfraction : ∀ c ∈ fraction, c.isDigit = true) (hrest : readExponent? rest = some exponent) :
    decimalOf? (whole ++ '.' :: (fraction ++ rest)) =
      some ((digitsValue (whole ++ fraction) : ℚ) * 10 ^ (exponent - (fraction.length : Int))) := by
  have hpoint : ∀ c ∈ ('.' :: (fraction ++ rest)).head?, c.isDigit = false := by
    intro c hc
    obtain rfl := Option.some.inj hc
    rfl
  have hhead := head_not_digit_of_exponent hrest
  rw [decimalOf?, takeWhile_append_of_stop hwhole hpoint, dropWhile_append_of_stop hwhole hpoint,
    splitPoint, takeWhile_append_of_stop hfraction hhead, dropWhile_append_of_stop hfraction hhead]
  dsimp only
  rw [hrest]
  rfl

theorem decimalOf?_exponent (hwhole : ∀ c ∈ whole, c.isDigit = true)
    (hrest : readExponent? ('e' :: rest) = some exponent) :
    decimalOf? (whole ++ 'e' :: rest) = some ((digitsValue whole : ℚ) * 10 ^ exponent) := by
  have hhead := head_not_digit_of_exponent hrest
  have hsplit : splitPoint ('e' :: rest) = ([], 'e' :: rest) := rfl
  rw [decimalOf?, takeWhile_append_of_stop hwhole hhead, dropWhile_append_of_stop hwhole hhead,
    hsplit]
  dsimp only
  rw [hrest, List.append_nil, Option.map_some, List.length_nil, Nat.cast_zero, sub_zero]

theorem decimalOf?_minus (text : List Char) : decimalOf? ('-' :: text) = none := rfl

end Numerals

section Layouts

variable {digits : List Char}

theorem isDigit_of_mem_zeros {count : Nat} : ∀ c ∈ List.replicate count '0', c.isDigit = true := by
  intro c hc
  rw [List.eq_of_mem_replicate hc]
  rfl

theorem isDigit_of_mem_append {first second : List Char} (hfirst : ∀ c ∈ first, c.isDigit = true)
    (hsecond : ∀ c ∈ second, c.isDigit = true) : ∀ c ∈ first ++ second, c.isDigit = true := by
  intro c hc
  rcases List.mem_append.mp hc with hc | hc
  · exact hfirst c hc
  · exact hsecond c hc

/-- Wherever the point stands, the text denotes the same decimal. -/
theorem decimalOf?_positionalText (hdigits : ∀ c ∈ digits, c.isDigit = true) (exponent : Int) :
    decimalOf? (positionalText true digits (exponent + digits.length)) =
      some ((digitsValue digits : ℚ) * 10 ^ exponent) := by
  have hzeros : ∀ c ∈ List.replicate 1 '0', c.isDigit = true := isDigit_of_mem_zeros
  have hzero : ∀ c ∈ ['0'], c.isDigit = true := hzeros
  have hnil : readExponent? [] = some 0 := rfl
  unfold positionalText
  dsimp only
  split
  · rename_i hposition
    have hfraction : ∀ c ∈ List.replicate (-(exponent + digits.length)).toNat '0' ++ digits,
        c.isDigit = true := isDigit_of_mem_append isDigit_of_mem_zeros hdigits
    have hread := decimalOf?_point hzero hfraction hnil
    rw [List.append_nil] at hread
    have hvalue : digitsValue (['0'] ++
        (List.replicate (-(exponent + digits.length)).toNat '0' ++ digits)) =
        digitsValue digits := by
      rw [digitsValue_append, digitsValue_append, digitsValue_zeros]
      have hdigit : digitsValue ['0'] = 0 := digitsValue_zeros 1
      rw [hdigit]
      omega
    have hexponent : (0 : Int) - ((List.replicate (-(exponent + digits.length)).toNat '0' ++
        digits).length : Int) = exponent := by
      rw [List.length_append, List.length_replicate]
      omega
    rw [hvalue, hexponent] at hread
    exact hread
  · split
    · rename_i hposition
      have hwhole : ∀ c ∈ digits ++
          List.replicate (exponent + digits.length - digits.length).toNat '0', c.isDigit = true :=
        isDigit_of_mem_append hdigits isDigit_of_mem_zeros
      have hread := decimalOf?_point hwhole hzero hnil
      have hcount : (exponent + digits.length - digits.length).toNat = exponent.toNat := by omega
      rw [if_pos rfl]
      refine hread.trans ?_
      have hvalue : digitsValue (digits ++
          List.replicate (exponent + digits.length - digits.length).toNat '0' ++ ['0']) =
          10 ^ (exponent.toNat + 1) * digitsValue digits := by
        rw [List.append_assoc, ← List.replicate_succ', digitsValue_append, digitsValue_zeros,
          List.length_replicate, hcount, tenTo_eq_pow, Nat.add_zero]
      rw [hvalue, Nat.cast_mul, Nat.cast_pow, Nat.cast_ofNat, mul_comm, ← mul_assoc,
        ← zpow_natCast, ← zpow_add₀ (by norm_num), mul_comm]
      congr 3
      have hlength : (['0'].length : Int) = 1 := rfl
      omega
    · rename_i hpositive hposition
      have htake : ∀ c ∈ digits.take (exponent + digits.length).toNat, c.isDigit = true :=
        fun c hc => hdigits c (List.mem_of_mem_take hc)
      have hdrop : ∀ c ∈ digits.drop (exponent + digits.length).toNat, c.isDigit = true :=
        fun c hc => hdigits c (List.mem_of_mem_drop hc)
      have hread := decimalOf?_point htake hdrop hnil
      have hexponent : (0 : Int) - ((digits.drop (exponent + digits.length).toNat).length : Int) =
          exponent := by
        rw [List.length_drop]
        omega
      rw [List.append_nil, List.take_append_drop, hexponent] at hread
      exact hread

theorem readExponent?_sign (exponent : Int) :
    readExponent? ('e' :: ((if exponent < 0 then ['-'] else ['+']) ++
      digitChars exponent.natAbs)) = some exponent := by
  have hread : ∀ text, readExponent? ('e' :: text) = readInt? text := fun _ => rfl
  rw [hread, digitChars]
  by_cases hneg : exponent < 0
  · have hsign : splitSign ('-' :: Nat.toDigits 10 exponent.natAbs) =
        (true, Nat.toDigits 10 exponent.natAbs) := rfl
    have habs : -(exponent.natAbs : Int) = exponent := by omega
    rw [if_pos hneg, List.singleton_append, readInt?_of_splitSign hsign, if_pos rfl, habs]
  · have hsign : splitSign ('+' :: Nat.toDigits 10 exponent.natAbs) =
        (false, Nat.toDigits 10 exponent.natAbs) := rfl
    have habs : (exponent.natAbs : Int) = exponent := by omega
    rw [if_neg hneg, List.singleton_append, readInt?_of_splitSign hsign, habs]
    rfl

theorem decimalOf?_exponentText (hne : digits ≠ []) (hdigits : ∀ c ∈ digits, c.isDigit = true)
    (exponent : Int) :
    decimalOf? (exponentText true digits (exponent + digits.length - 1)) =
      some ((digitsValue digits : ℚ) * 10 ^ exponent) := by
  have hread := readExponent?_sign (exponent + digits.length - 1)
  unfold exponentText
  dsimp only
  rw [if_pos rfl, List.append_assoc, List.cons_append]
  cases digits with
  | nil => exact absurd rfl hne
  | cons digit rest =>
      cases rest with
      | nil =>
          refine (decimalOf?_exponent hdigits hread).trans ?_
          have hexponent : exponent + ([digit].length : Int) - 1 = exponent := by
            rw [List.length_singleton]
            omega
          rw [hexponent]
      | cons next rest =>
          have hdigit : ∀ c ∈ [digit], c.isDigit = true := by
            intro c hc
            rw [List.mem_singleton.mp hc]
            exact hdigits digit List.mem_cons_self
          have hrest : ∀ c ∈ next :: rest, c.isDigit = true :=
            fun c hc => hdigits c (List.mem_cons_of_mem _ hc)
          refine (decimalOf?_point hdigit hrest hread).trans ?_
          have hexponent : exponent + ((digit :: next :: rest).length : Int) - 1 -
              ((next :: rest).length : Int) = exponent := by
            rw [List.length_cons]
            omega
          rw [hexponent]
          rfl

/-- The text of a magnitude denotes a decimal that names it. -/
theorem exists_decimalOf?_magnitude {value : Binary} (h : value.Normal) :
    ∃ decimal, decimalOf? (Layout.json.magnitude value) = some decimal ∧ value.Names decimal := by
  by_cases hzero : value.significand = 0
  · refine ⟨0, ?_, Binary.names_zero hzero⟩
    have hread : decimalOf? ['0', '.', '0'] =
        some ((digitsValue ['0', '0'] : ℚ) * 10 ^ ((0 : Int) - 1)) := rfl
    have hdigits : digitsValue ['0', '0'] = 0 := rfl
    rw [Layout.magnitude, if_pos hzero, Layout.json]
    dsimp only
    rw [if_pos rfl, hread, hdigits, Nat.cast_zero, zero_mul]
  · have hnames := Binary.names_shortest h (Nat.pos_of_ne_zero hzero) Layout.json.tie
    refine ⟨_, ?_, hnames⟩
    have hdigits : ∀ c ∈ digitChars (value.shortest Layout.json.tie).coefficient,
        c.isDigit = true := fun c hc => isDigit_of_mem_toDigits hc
    have hvalue : digitsValue (digitChars (value.shortest Layout.json.tie).coefficient) =
        (value.shortest Layout.json.tie).coefficient := digitsValue_toDigits _
    rw [Layout.magnitude, if_neg hzero]
    dsimp only
    split
    · have hread := decimalOf?_positionalText hdigits (value.shortest Layout.json.tie).exponent
      rw [hvalue] at hread
      exact hread
    · have hne : digitChars (value.shortest Layout.json.tie).coefficient ≠ [] :=
        Nat.toDigits_ne_nil
      have hread := decimalOf?_exponentText hne hdigits (value.shortest Layout.json.tie).exponent
      rw [hvalue] at hread
      exact hread

theorem mem_positionalText (digits : List Char) (position : Int) :
    '.' ∈ positionalText true digits position := by
  unfold positionalText
  dsimp only
  split
  · simp
  · split
    · simp
    · simp

theorem exists_mem_magnitude (value : Binary) :
    ∃ c ∈ Layout.json.magnitude value, c = '.' ∨ c = 'e' := by
  rw [Layout.magnitude]
  dsimp only
  split
  · exact ⟨'.', by simp [Layout.json], .inl rfl⟩
  · split
    · exact ⟨'.', mem_positionalText _ _, .inl rfl⟩
    · exact ⟨'e', by simp [exponentText], .inr rfl⟩

end Layouts

section Texts

variable {x y : Float} {value other : Binary}

/-- The sign and the magnitude of a finite double. -/
theorem writeFloat_of_ofFloat? (h : Binary.ofFloat? x = some value) :
    Json.writeFloat x =
      (if value.negative then ['-'] else []) ++ Layout.json.magnitude value := by
  have hfinite : isFinite x = true := by
    rw [isFinite, h]
    rfl
  rw [Json.writeFloat, if_pos hfinite, Layout.write, h]
  exact String.toList_ofList

theorem writeFloat_of_not_finite (h : isFinite x = false) : Json.writeFloat x = "null".toList := by
  rw [Json.writeFloat, h]
  rfl

theorem writeFloat_inj (hx : Binary.ofFloat? x = some value) (hy : Binary.ofFloat? y = some other)
    (h : Json.writeFloat x = Json.writeFloat y) : x = y := by
  have hnormal := Binary.normal_of_ofFloat? hx
  have hnormal' := Binary.normal_of_ofFloat? hy
  obtain ⟨decimal, hread, hnames⟩ := exists_decimalOf?_magnitude hnormal
  obtain ⟨decimal', hread', hnames'⟩ := exists_decimalOf?_magnitude hnormal'
  rw [writeFloat_of_ofFloat? hx, writeFloat_of_ofFloat? hy] at h
  have hsame : value.negative = other.negative ∧
      Layout.json.magnitude value = Layout.json.magnitude other := by
    cases hneg : value.negative <;> cases hneg' : other.negative
    · rw [hneg, hneg'] at h
      exact ⟨rfl, h⟩
    · rw [hneg, hneg'] at h
      simp only [Bool.false_eq_true, if_false, if_true, List.nil_append, List.singleton_append] at h
      rw [h, decimalOf?_minus] at hread
      cases hread
    · rw [hneg, hneg'] at h
      simp only [Bool.false_eq_true, if_false, if_true, List.nil_append, List.singleton_append] at h
      rw [← h, decimalOf?_minus] at hread'
      cases hread'
    · rw [hneg, hneg'] at h
      exact ⟨rfl, List.append_cancel_left h⟩
  obtain ⟨hnegative, hmagnitude⟩ := hsame
  rw [hmagnitude, hread'] at hread
  rw [← Option.some.inj hread] at hnames
  obtain ⟨hsignificand, hexponent⟩ := hnames.unique hnames' hnormal hnormal'
  have hvalue : value = other := by
    cases value
    cases other
    simp_all
  rw [hvalue] at hx
  exact Binary.ofFloat?_inj hx hy

theorem splitSign_eq (text : List Char) :
    text = '-' :: (splitSign text).2 ∨ text = '+' :: (splitSign text).2 ∨
      text = (splitSign text).2 := by
  unfold splitSign
  split
  · exact .inl rfl
  · exact .inr (.inl rfl)
  · exact .inr (.inr rfl)

theorem readInt?_writeFloat (h : Binary.ofFloat? x = some value) :
    readInt? (Json.writeFloat x) = none := by
  obtain ⟨c, hmem, hc⟩ := exists_mem_magnitude value
  have htext : c ∈ Json.writeFloat x := by
    rw [writeFloat_of_ofFloat? h]
    exact List.mem_append_right _ hmem
  have hdigits : c ∈ (splitSign (Json.writeFloat x)).2 := by
    rcases splitSign_eq (Json.writeFloat x) with hsign | hsign | hsign
    · rw [hsign] at htext
      rcases List.mem_cons.mp htext with rfl | htext
      · rcases hc with hc | hc <;> cases hc
      · exact htext
    · rw [hsign] at htext
      rcases List.mem_cons.mp htext with rfl | htext
      · rcases hc with hc | hc <;> cases hc
      · exact htext
    · rwa [hsign] at htext
  have hall : (splitSign (Json.writeFloat x)).2.all Char.isDigit = false := by
    refine List.all_eq_false.mpr ⟨c, hdigits, ?_⟩
    rcases hc with rfl | rfl <;> decide
  rw [readInt?]
  dsimp only
  rw [hall, Bool.not_false, Bool.or_true, if_pos rfl]

theorem writeFloat_ne (h : Binary.ofFloat? x = some value) {text : List Char}
    (htext : decimalOf? text = none) (hminus : '-' ∉ text.head?) : Json.writeFloat x ≠ text := by
  obtain ⟨decimal, hread, _⟩ := exists_decimalOf?_magnitude (Binary.normal_of_ofFloat? h)
  intro heq
  rw [writeFloat_of_ofFloat? h] at heq
  split at heq
  · rw [← heq] at hminus
    exact hminus rfl
  · rw [← heq, List.nil_append, hread] at htext
    cases htext

end Texts

end MetricLayer.Decimal
