import MetricLayer.Display
import MetricLayer.Proofs.Decimal.Places
import MetricLayer.Proofs.Text.Trimming
import Mathlib.Data.List.DropRight

/-!
# Edits of a display text

Each edit of a written numeral gives a written numeral again: grouping puts commas between the whole
digits, trimming shortens the fraction by zeros, and the minus goes when no digit above zero is
left. None of them touches the number that the digits denote.
-/

namespace MetricLayer.Display

open Decimal (Numeral digitsValue)

section Digits

variable {digits : List Char}

theorem isNonzeroDigit_iff {c : Char} :
    isNonzeroDigit c = true ↔ c.isDigit = true ∧ Decimal.digitValue c ≠ 0 := by
  have hlower : '1' ≤ c ↔ '0'.toNat < c.toNat := Iff.rfl
  have hupper : c ≤ '9' ↔ c.toNat ≤ '9'.toNat := Iff.rfl
  rw [isNonzeroDigit, Bool.and_eq_true, decide_eq_true_iff, decide_eq_true_iff,
    Char.isDigit_iff_toNat, Decimal.digitValue, hlower, hupper]
  omega

theorem any_isNonzeroDigit_of_no_digit {text : List Char} (h : ∀ c ∈ text, c.isDigit = false) :
    text.any isNonzeroDigit = false := by
  refine List.any_eq_false.mpr fun c hc hnonzero => ?_
  have hdigit := (isNonzeroDigit_iff.mp hnonzero).1
  rw [h c hc] at hdigit
  cases hdigit

theorem any_isNonzeroDigit_iff (h : ∀ c ∈ digits, c.isDigit = true) :
    digits.any isNonzeroDigit = true ↔ digitsValue digits ≠ 0 := by
  induction digits with
  | nil => decide
  | cons c rest ih =>
      rw [List.forall_mem_cons] at h
      have hpos := Decimal.tenTo_pos rest.length
      rw [List.any_cons, Bool.or_eq_true, isNonzeroDigit_iff, and_iff_right h.1, ih h.2,
        Decimal.digitsValue_cons, Ne, Ne, Ne, Nat.add_eq_zero_iff, Nat.mul_eq_zero,
        or_iff_right hpos.ne', not_and_or]

end Digits

theorem filter_groupDigits (digits : List Char) :
    (groupDigits digits).filter (· ≠ ',') = digits.filter (· ≠ ',') := by
  induction digits using groupDigits.induct with
  | case1 => rfl
  | case2 c => rfl
  | case3 c next rest hgap ih =>
      rw [groupDigits, if_pos hgap, List.filter_cons, List.filter_cons_of_neg (by decide), ih,
        @List.filter_cons _ c (next :: rest)]
  | case4 c next rest hgap ih =>
      rw [groupDigits, if_neg hgap, List.filter_cons, ih, @List.filter_cons _ c (next :: rest)]

theorem head?_groupDigits (digits : List Char) : (groupDigits digits).head? = digits.head? := by
  unfold groupDigits
  split
  · rfl
  · rfl
  · split
    · rfl
    · rfl

theorem any_groupDigits (digits : List Char) :
    (groupDigits digits).any isNonzeroDigit = digits.any isNonzeroDigit := by
  have hcomma : ∀ text : List Char,
      (text.filter (· ≠ ',')).any isNonzeroDigit = text.any isNonzeroDigit := by
    intro text
    rw [List.any_filter]
    congr 1
    funext c
    by_cases hc : c = ','
    · rw [hc]
      rfl
    · rw [decide_eq_true hc, Bool.true_and]
  rw [← hcomma, filter_groupDigits, hcomma]

theorem forall_head?_append {p : Char → Prop} {front rest : List Char}
    (hfront : ∀ c ∈ front.head?, p c) (hrest : ∀ c ∈ rest.head?, p c) :
    ∀ c ∈ (front ++ rest).head?, p c := by
  cases front with
  | nil => exact hrest
  | cons c front => exact hfront

section Numerals

variable {numeral : Numeral} {text : List Char} {negative : Bool}

theorem groupThousands_minus (h : ∀ c ∈ text.head?, c ≠ '-') :
    groupThousands (Numeral.minus negative ++ text) = Numeral.minus negative ++
      groupDigits (text.takeWhile (· ≠ '.')) ++ text.dropWhile (· ≠ '.') := by
  cases negative with
  | true => rfl
  | false =>
      rw [Numeral.minus, if_neg Bool.false_ne_true, List.nil_append, groupThousands]
      rintro rest rfl
      exact h '-' rfl rfl

theorem dropZeroSign_minus (h : ∀ c ∈ text.head?, c ≠ '-') :
    dropZeroSign (Numeral.minus negative ++ text) =
      Numeral.minus (negative && text.any isNonzeroDigit) ++ text := by
  cases negative with
  | true =>
      rw [Bool.true_and, Numeral.minus, if_pos rfl, List.singleton_append, dropZeroSign,
        Numeral.minus]
      split
      · rfl
      · rfl
  | false =>
      rw [Bool.false_and, Numeral.minus, if_neg Bool.false_ne_true, List.nil_append, dropZeroSign]
      rintro rest rfl
      exact h '-' rfl rfl

theorem notMem_minus {c : Char} (h : c ≠ '-') : c ∉ Numeral.minus negative := by
  cases negative with
  | true => exact fun hc => h (List.mem_singleton.mp hc)
  | false => exact List.not_mem_nil

theorem notMem_of_digits {digits : List Char} {c : Char} (h : ∀ d ∈ digits, d.isDigit = true)
    (hc : c.isDigit = false) : c ∉ digits :=
  fun hmem => Bool.false_ne_true (hc.symm.trans (h c hmem))

/-- The whole digits are grouped, and what follows them from the point on stays. -/
theorem groupThousands_append {whole rest : List Char} (hne : whole ≠ [])
    (hwhole : ∀ c ∈ whole, c.isDigit = true) (hrest : ∀ c ∈ rest.head?, c = '.') :
    groupThousands (Numeral.minus negative ++ (whole ++ rest)) =
      Numeral.minus negative ++ (groupDigits whole ++ rest) := by
  have hpoint : ∀ c ∈ whole, decide (c ≠ '.') = true := fun c hc =>
    decide_eq_true fun heq => notMem_of_digits hwhole rfl (heq ▸ hc)
  have hstop : ∀ c ∈ rest.head?, decide (c ≠ '.') = false := fun c hc =>
    decide_eq_false (not_not.mpr (hrest c hc))
  rw [groupThousands_minus (Numeral.head?_append_of_digits hne hwhole rest),
    Decimal.takeWhile_append_of_stop hpoint hstop, Decimal.dropWhile_append_of_stop hpoint hstop,
    List.append_assoc]

theorem groupThousands_text (h : numeral.WellFormed) : groupThousands numeral.text =
    Numeral.minus numeral.negative ++
      (groupDigits numeral.whole ++ Numeral.pointed numeral.fraction) :=
  groupThousands_append h.whole_ne_nil h.whole_digits
    fun _ => Numeral.eq_point_of_mem_head?_pointed

theorem exists_eq_dropTrailing (c : Char) (text : List Char) :
    ∃ count, text = dropTrailing c text ++ List.replicate count c := by
  have htail : text.rtakeWhile (· = c) =
      List.replicate (text.rtakeWhile (· = c)).length c := by
    refine List.eq_replicate_of_mem fun d hd => ?_
    have hequal := List.mem_rtakeWhile_imp hd
    exact of_decide_eq_true hequal
  refine ⟨(text.rtakeWhile (· = c)).length, ?_⟩
  rw [← htail]
  exact (List.rdropWhile_append_rtakeWhile ..).symm

theorem ne_of_mem_getLast?_dropTrailing {c d : Char} {text : List Char}
    (h : d ∈ (dropTrailing c text).getLast?) : d ≠ c := by
  rw [dropTrailing, List.getLast?_reverse] at h
  have hhead := List.head?_dropWhile_not (· = c) text.reverse
  rw [h] at hhead
  exact of_decide_eq_false hhead

def trimmed (numeral : Numeral) : Numeral :=
  { numeral with fraction := dropTrailing '0' numeral.fraction }

theorem number_trimmed (numeral : Numeral) : (trimmed numeral).number = numeral.number := by
  obtain ⟨count, hfraction⟩ := exists_eq_dropTrailing '0' numeral.fraction
  calc (trimmed numeral).number
      = Numeral.number ⟨numeral.negative, numeral.whole,
          dropTrailing '0' numeral.fraction ++ List.replicate count '0'⟩ :=
        (Numeral.number_append_zeros ..).symm
    _ = numeral.number := by rw [← hfraction]

theorem wellFormed_trimmed (h : numeral.WellFormed) : (trimmed numeral).WellFormed where
  whole_ne_nil := h.whole_ne_nil
  whole_digits := h.whole_digits
  fraction_digits := by
    obtain ⟨count, hfraction⟩ := exists_eq_dropTrailing '0' numeral.fraction
    intro c hc
    refine h.fraction_digits c ?_
    rw [hfraction]
    exact List.mem_append_left _ hc

theorem dropTrailing_append {c : Char} {core : List Char} (count : Nat)
    (h : ∀ d ∈ core.getLast?, d ≠ c) :
    dropTrailing c (core ++ List.replicate count c) = core :=
  Text.dropEndWhile_append (fun _ hd => decide_eq_true (List.eq_of_mem_replicate hd))
    fun d hd => decide_eq_false (h d hd)

theorem dropTrailing_self {c : Char} {core : List Char} (h : ∀ d ∈ core.getLast?, d ≠ c) :
    dropTrailing c core = core := by
  have hcore := dropTrailing_append 0 h
  rwa [List.replicate_zero, List.append_nil] at hcore

section Points

variable {front core : List Char}

theorem getLast?_append_cons (front : List Char) (c first : Char) (rest : List Char) :
    (front ++ c :: first :: rest).getLast? = (first :: rest).getLast? := by
  rw [List.getLast?_append, List.getLast?_cons_cons]
  rfl

theorem dropZeros (count : Nat) (h : ∀ d ∈ core.getLast?, d ≠ '0') :
    dropTrailing '0' (front ++ '.' :: core ++ List.replicate count '0') = front ++ '.' :: core := by
  refine dropTrailing_append count ?_
  cases core with
  | nil =>
      rw [List.getLast?_concat]
      exact fun d hd => Option.some.inj hd ▸ (by decide)
  | cons first rest => rwa [getLast?_append_cons]

theorem dropPoint (hfront : '.' ∉ front) (hcore : '.' ∉ core) :
    dropTrailing '.' (front ++ '.' :: core) = front ++ Numeral.pointed core := by
  have hlast : ∀ {text : List Char}, '.' ∉ text → ∀ d ∈ text.getLast?, d ≠ '.' :=
    fun hpoint d hd heq => hpoint (heq ▸ List.mem_of_getLast? hd)
  cases core with
  | nil => exact (dropTrailing_append 1 (hlast hfront)).trans (List.append_nil front).symm
  | cons first rest =>
      refine dropTrailing_self ?_
      rw [getLast?_append_cons]
      exact hlast hcore

end Points

/-- Zeros behind the point go, and then the point if there are no digits behind it. -/
theorem trimFraction_append {front fraction : List Char} (hfront : '.' ∉ front)
    (hfraction : '.' ∉ fraction) : trimFraction (front ++ Numeral.pointed fraction) =
      front ++ Numeral.pointed (dropTrailing '0' fraction) := by
  by_cases hnil : fraction = []
  · have hcontains : ¬front.contains '.' = true := by rwa [List.contains_iff_mem]
    rw [hnil, Numeral.pointed, if_pos List.isEmpty_nil, List.append_nil, trimFraction,
      if_neg hcontains]
    exact (List.append_nil front).symm
  · obtain ⟨count, hzeros⟩ := exists_eq_dropTrailing '0' fraction
    have hpoint : '.' ∉ dropTrailing '0' fraction := fun hmem =>
      hfraction (by rw [hzeros]; exact List.mem_append_left _ hmem)
    have hpointed : Numeral.pointed fraction = '.' :: fraction :=
      if_neg fun hempty => hnil (List.isEmpty_iff.mp hempty)
    have hcontains : (front ++ '.' :: fraction).contains '.' = true :=
      List.contains_iff_mem.mpr (List.mem_append_right _ List.mem_cons_self)
    have hsplit : front ++ '.' :: fraction =
        front ++ '.' :: dropTrailing '0' fraction ++ List.replicate count '0' := by
      rw [List.append_assoc, List.cons_append, ← hzeros]
    rw [hpointed, trimFraction, if_pos hcontains, hsplit,
      dropZeros count fun _ => ne_of_mem_getLast?_dropTrailing, dropPoint hfront hpoint]

/-- Trimming leaves the whole digits alone: the point stands between them and the zeros. -/
theorem trimFraction_text (h : numeral.WellFormed) :
    trimFraction numeral.text = (trimmed numeral).text := by
  have hfront : '.' ∉ Numeral.minus numeral.negative ++ numeral.whole := fun hmem =>
    (List.mem_append.mp hmem).elim (notMem_minus (by decide)) (notMem_of_digits h.whole_digits rfl)
  have htrim := trimFraction_append hfront (notMem_of_digits h.fraction_digits rfl)
  rwa [List.append_assoc, List.append_assoc] at htrim

end Numerals

end MetricLayer.Display
