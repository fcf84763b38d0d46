import MetricLayer.Proofs.Display.Edits

/-!
# Thousands

Grouping cuts the whole digits of a decimal into threes, counted from the end. The commas stand
between the groups and nowhere else: the sign and the fraction stay as they are.
-/

namespace MetricLayer.Display

open Decimal (Numeral)

variable {digits whole first : List Char} {groups : List (List Char)} {c : Char}

/-- Three digits in every group but the first, which has one to three. -/
def InThrees : List (List Char) → Prop
  | [] => False
  | first :: groups => first.length ∈ Set.Icc 1 3 ∧ ∀ group ∈ groups, group.length = 3

namespace InThrees

theorem singleton (c : Char) : InThrees [[c]] :=
  ⟨⟨le_rfl, Nat.le_add_left 1 2⟩, List.forall_mem_nil _⟩

/-- A new group may start in front of a full one. -/
theorem cons (h : InThrees (first :: groups)) (hfull : first.length = 3) :
    InThrees ([c] :: first :: groups) :=
  ⟨⟨le_rfl, Nat.le_add_left 1 2⟩, List.forall_mem_cons.mpr ⟨hfull, h.2⟩⟩

/-- A group that is not full may grow. -/
theorem cons_first (h : InThrees (first :: groups)) (hfull : first.length ≠ 3) :
    InThrees ((c :: first) :: groups) :=
  ⟨⟨Nat.succ_pos _, Nat.lt_of_le_of_ne h.1.2 hfull⟩, h.2⟩

/-- Only the first group leaves a remainder. -/
theorem length_flatten (h : InThrees (first :: groups)) :
    (first :: groups).flatten.length = first.length + 3 * groups.length := by
  have hgroups : groups.map List.length = List.replicate groups.length 3 :=
    List.eq_replicate_iff.mpr ⟨List.length_map .., List.forall_mem_map.mpr h.2⟩
  rw [List.flatten_cons, List.length_append, List.length_flatten, hgroups, List.sum_replicate,
    Nat.nsmul_eq_mul, mul_comm]

theorem full_iff (h : InThrees (first :: groups)) :
    first.length = 3 ↔ (first :: groups).flatten.length % 3 = 0 := by
  obtain ⟨hpos, hle⟩ := h.1
  rw [h.length_flatten]
  omega

end InThrees

/-- One more digit in front of the first group. -/
theorem intercalate_cons_first (c : Char) (first : List Char) (groups : List (List Char)) :
    [','].intercalate ((c :: first) :: groups) = c :: [','].intercalate (first :: groups) := by
  cases groups with
  | nil => rw [List.intercalate_singleton, List.intercalate_singleton]
  | cons group groups =>
      rw [List.intercalate_cons_cons, List.intercalate_cons_cons, List.cons_append,
        List.cons_append]

/-- The digits are written group by group. The induction runs over them from the front, so a comma
is due exactly where the rest makes full groups. -/
theorem groupDigits_eq_intercalate (h : digits ≠ []) :
    ∃ first groups, InThrees (first :: groups) ∧ (first :: groups).flatten = digits ∧
      groupDigits digits = [','].intercalate (first :: groups) := by
  induction digits using groupDigits.induct with
  | case1 => exact absurd rfl h
  | case2 c => exact ⟨[c], [], .singleton c, rfl, rfl⟩
  | case3 c next rest hgap ih =>
      obtain ⟨first, groups, hthrees, hflatten, hgrouped⟩ := ih (List.cons_ne_nil _ _)
      have hfull : first.length = 3 := hthrees.full_iff.mpr (by rw [hflatten]; exact hgap)
      refine ⟨[c], first :: groups, hthrees.cons hfull, by rw [← hflatten]; rfl, ?_⟩
      rw [groupDigits, if_pos hgap, hgrouped, List.intercalate_cons_cons]
      rfl
  | case4 c next rest hgap ih =>
      obtain ⟨first, groups, hthrees, hflatten, hgrouped⟩ := ih (List.cons_ne_nil _ _)
      have hfull : first.length ≠ 3 := fun hfull =>
        hgap (by rw [hthrees.full_iff, hflatten] at hfull; exact hfull)
      refine ⟨c :: first, groups, hthrees.cons_first hfull, by rw [← hflatten]; rfl, ?_⟩
      rw [groupDigits, if_neg hgap, hgrouped, intercalate_cons_first]

/-- Cutting at the commas gives the groups back. -/
theorem splitOn_groupDigits (h : digits ≠ []) (hcomma : ',' ∉ digits) :
    InThrees ((groupDigits digits).splitOn ',') := by
  obtain ⟨first, groups, hthrees, hflatten, hgrouped⟩ := groupDigits_eq_intercalate h
  have hgroup : ∀ group ∈ first :: groups, ',' ∉ group := fun group hgroup hmem =>
    hcomma (hflatten ▸ List.mem_flatten_of_mem hgroup hmem)
  rwa [hgrouped, List.splitOn_intercalate ',' hgroup (List.cons_ne_nil _ _)]

theorem getLast?_groupDigits (digits : List Char) :
    (groupDigits digits).getLast? = digits.getLast? := by
  induction digits using groupDigits.induct with
  | case1 => rfl
  | case2 c => rfl
  | case3 c next rest hgap ih =>
      obtain ⟨later, hlater⟩ := List.head?_eq_some_iff.mp (head?_groupDigits (next :: rest))
      rw [groupDigits, if_pos hgap, hlater, List.getLast?_cons_cons, List.getLast?_cons_cons,
        ← hlater, ih, List.getLast?_cons_cons]
  | case4 c next rest hgap ih =>
      obtain ⟨later, hlater⟩ := List.head?_eq_some_iff.mp (head?_groupDigits (next :: rest))
      rw [groupDigits, if_neg hgap, hlater, List.getLast?_cons_cons, ← hlater, ih,
        List.getLast?_cons_cons]

/-- What follows the whole digits: nothing, or a point and digits. -/
def pointText : Option (List Char) → List Char
  | none => []
  | some fraction => '.' :: fraction

section Plain

variable {fraction : Option (List Char)}

theorem head?_pointText : ∀ c ∈ (pointText fraction).head?, c = '.' := by
  cases fraction with
  | none => exact nofun
  | some digits => exact fun c hc => (Option.some.inj hc).symm

theorem comma_notMem_pointText (h : ∀ digits ∈ fraction, ∀ c ∈ digits, c.isDigit = true) :
    ',' ∉ pointText fraction := by
  cases fraction with
  | none => exact List.not_mem_nil
  | some digits =>
      exact List.not_mem_cons_of_ne_of_not_mem (by decide) (notMem_of_digits (h digits rfl) rfl)

/-- **Grouping only inserts commas, in the right places.** Without its commas a grouped decimal is
the decimal that it was made from. The sign and what follows the whole digits stay as they are,
without a comma; the whole digits neither start nor end with one, and the commas cut them into
threes. -/
theorem groupThousands_inThrees {text : List Char} {negative : Bool}
    (htext : text = Numeral.minus negative ++ (whole ++ pointText fraction)) (hne : whole ≠ [])
    (hwhole : ∀ c ∈ whole, c.isDigit = true)
    (hfraction : ∀ digits ∈ fraction, ∀ c ∈ digits, c.isDigit = true) :
    (groupThousands text).filter (· ≠ ',') = text ∧
      ∃ grouped, groupThousands text = Numeral.minus negative ++ (grouped ++ pointText fraction) ∧
        ',' ∉ pointText fraction ∧ grouped.head? ≠ some ',' ∧ grouped.getLast? ≠ some ',' ∧
        InThrees (grouped.splitOn ',') := by
  have hminus : ',' ∉ Numeral.minus negative := notMem_minus (by decide)
  have hcomma : ',' ∉ whole := notMem_of_digits hwhole rfl
  have hpoint := comma_notMem_pointText hfraction
  have hself : ∀ {text : List Char}, ',' ∉ text → text.filter (· ≠ ',') = text :=
    fun hnot => List.filter_eq_self.mpr fun c hc => decide_eq_true fun heq => hnot (heq ▸ hc)
  have hgrouped : groupThousands text =
      Numeral.minus negative ++ (groupDigits whole ++ pointText fraction) := by
    rw [htext, groupThousands_append hne hwhole head?_pointText]
  refine ⟨?_, groupDigits whole, hgrouped, hpoint, ?_, ?_, splitOn_groupDigits hne hcomma⟩
  · rw [hgrouped, List.filter_append, List.filter_append, filter_groupDigits, hself hminus,
      hself hcomma, hself hpoint, htext]
  · rw [head?_groupDigits]
    exact fun hhead => hcomma (List.mem_of_head? hhead)
  · rw [getLast?_groupDigits]
    exact fun hlast => hcomma (List.mem_of_getLast? hlast)

/-- Seven digits make three groups; the four digits behind the point make none. -/
theorem groupThousands_inThrees_millions :
    groupThousands "-1234567.8901".toList = "-1,234,567.8901".toList ∧
      InThrees ("1,234,567".toList.splitOn ',') := by
  have hshown : groupThousands "-1234567.8901".toList = "-1,234,567.8901".toList := by
    decide +kernel
  have hwhole : ∀ c ∈ "1234567".toList, c.isDigit = true :=
    List.all_eq_true.mp (by decide +kernel)
  have hfraction : ∀ digits ∈ some "8901".toList, ∀ c ∈ digits, c.isDigit = true := by
    rintro digits hdigits
    obtain rfl := Option.some.inj hdigits
    exact List.all_eq_true.mp (by decide +kernel)
  obtain ⟨-, grouped, hgrouped, -, -, -, hthrees⟩ :=
    @groupThousands_inThrees "1234567".toList (some "8901".toList) "-1234567.8901".toList true
      (by decide +kernel) (by decide +kernel) hwhole hfraction
  obtain rfl : grouped = "1,234,567".toList := by
    have happend := List.append_cancel_left (hgrouped.symm.trans hshown :
      ['-'] ++ (grouped ++ ".8901".toList) = ['-'] ++ ("1,234,567".toList ++ ".8901".toList))
    exact List.append_cancel_right happend
  exact ⟨hshown, hthrees⟩

end Plain

end MetricLayer.Display
