import MetricLayer.Proofs.Decimal.Digits
import MetricLayer.Text.Blank
import Mathlib.Data.List.Infix
import Mathlib.Data.List.TakeWhile

namespace MetricLayer.Text

variable {text core front tail separator before after : List Char}

def Blank (text : List Char) : Prop := ∀ c ∈ text, isBlank c = true

instance (text : List Char) : Decidable (Blank text) :=
  decidable_of_iff (text.all isBlank = true) List.all_eq_true

theorem Blank.append (hfront : Blank front) (htail : Blank tail) : Blank (front ++ tail) :=
  List.forall_mem_append.mpr ⟨hfront, htail⟩

theorem Blank.reverse (h : Blank text) : Blank text.reverse :=
  fun c hc => h c (List.mem_reverse.mp hc)

structure Trimmed (text : List Char) : Prop where
  head : ∀ c ∈ text.head?, isBlank c = false
  last : ∀ c ∈ text.getLast?, isBlank c = false

instance (text : List Char) : Decidable (Trimmed text) :=
  decidable_of_iff
      (text.head?.all (!isBlank ·) = true ∧ text.getLast?.all (!isBlank ·) = true) <| by
    rw [Option.all_eq_true, Option.all_eq_true]
    simp only [Bool.not_eq_true']
    exact ⟨fun h => ⟨h.1, h.2⟩, fun h => ⟨h.head, h.last⟩⟩

/-- The core is the text without the blanks around it. -/
def TrimsTo (text core : List Char) : Prop :=
  ∃ front tail, Blank front ∧ Blank tail ∧ text = front ++ (core ++ tail) ∧ Trimmed core

theorem dropBlank_append (hfront : Blank front) (hhead : ∀ c ∈ text.head?, isBlank c = false) :
    dropBlank (front ++ text) = text :=
  Decimal.dropWhile_append_of_stop hfront hhead

theorem dropBlank_of_blank (h : Blank text) : dropBlank text = [] :=
  List.dropWhile_eq_nil_iff.mpr h

theorem exists_eq_append_dropBlank (text : List Char) :
    ∃ front, Blank front ∧ text = front ++ dropBlank text :=
  ⟨text.takeWhile isBlank, fun _ => List.mem_takeWhile_imp,
    (List.takeWhile_append_dropWhile).symm⟩

theorem head?_dropBlank (text : List Char) : ∀ c ∈ (dropBlank text).head?, isBlank c = false := by
  intro c hc
  have hhead := List.head?_dropWhile_not isBlank text
  rw [dropBlank] at hc
  rw [hc] at hhead
  exact hhead

theorem dropEndWhile_append {drop : Char → Bool} (htail : ∀ c ∈ tail, drop c = true)
    (hlast : ∀ c ∈ core.getLast?, drop c = false) : dropEndWhile drop (core ++ tail) = core := by
  have hreverse : ∀ c ∈ tail.reverse, drop c = true :=
    fun c hc => htail c (List.mem_reverse.mp hc)
  rw [dropEndWhile, List.reverse_append,
    Decimal.dropWhile_append_of_stop hreverse (by rwa [List.head?_reverse]), List.reverse_reverse]

/-- What ends a text comes back to its front when the text is reversed. -/
theorem dropEndWhile_eq (text : List Char) :
    dropEndWhile isBlank text = (dropBlank text.reverse).reverse := rfl

theorem trimChars_of_trimsTo (h : TrimsTo text core) : trimChars text = core := by
  obtain ⟨front, tail, hfront, htail, rfl, hcore⟩ := h
  rw [trimChars]
  cases core with
  | nil =>
      rw [List.nil_append, dropBlank_of_blank (hfront.append htail)]
      rfl
  | cons c rest =>
      have hdrop : dropBlank (front ++ (c :: rest ++ tail)) = c :: rest ++ tail :=
        dropBlank_append hfront hcore.head
      rw [hdrop, dropEndWhile_append htail hcore.last]

theorem trimsTo_trimChars (text : List Char) : TrimsTo text (trimChars text) := by
  obtain ⟨front, hfront, hdrop⟩ := exists_eq_append_dropBlank text
  obtain ⟨tail, htail, hreverse⟩ := exists_eq_append_dropBlank (dropBlank text).reverse
  have hrest : dropBlank text = trimChars text ++ tail.reverse := by
    rw [trimChars, dropEndWhile_eq, ← List.reverse_append, ← hreverse, List.reverse_reverse]
  refine ⟨front, tail.reverse, hfront, htail.reverse, by rw [← hrest, ← hdrop], ?_, ?_⟩
  · intro c hc
    refine head?_dropBlank text c ?_
    rw [hrest]
    exact List.mem_head?_append_of_mem_head? hc
  · intro c hc
    rw [trimChars, dropEndWhile_eq, List.getLast?_reverse] at hc
    exact head?_dropBlank _ c hc

theorem trimChars_eq_iff : trimChars text = core ↔ TrimsTo text core :=
  ⟨fun h => h ▸ trimsTo_trimChars text, trimChars_of_trimsTo⟩

theorem trimsTo_self (h : Trimmed text) : TrimsTo text text :=
  ⟨[], [], by decide, by decide, (List.append_nil text).symm, h⟩

/-- Trimming leaves whatever is not blank. -/
theorem TrimsTo.ne_nil (h : TrimsTo text core) {c : Char} (hc : c ∈ text)
    (hblank : isBlank c = false) : core ≠ [] := by
  rintro rfl
  obtain ⟨front, tail, hfront, htail, rfl, -⟩ := h
  have hblank' : isBlank c = true := hfront.append htail c hc
  rw [hblank] at hblank'
  cases hblank'

/-- The text is cut at the first place where the separator stands. -/
def FirstCut (separator text before after : List Char) : Prop :=
  text = before ++ (separator ++ after) ∧
    ∀ earlier later, text = earlier ++ (separator ++ later) → before.length ≤ earlier.length

theorem FirstCut.isInfix (h : FirstCut separator text before after) : separator <:+: text :=
  ⟨before, after, by rw [h.1, List.append_assoc]⟩

theorem FirstCut.ne_nil (h : FirstCut separator text before after) (hseparator : separator ≠ []) :
    text ≠ [] := by
  rintro rfl
  exact hseparator (List.infix_nil.mp h.isInfix)

theorem FirstCut.unique {first rest : List Char} (h : FirstCut separator text before after)
    (h' : FirstCut separator text first rest) : before = first ∧ after = rest := by
  have hlength : before.length = first.length :=
    (h.2 first rest h'.1).antisymm (h'.2 before after h.1)
  obtain ⟨hbefore, hrest⟩ := List.append_inj (h.1.symm.trans h'.1) hlength
  exact ⟨hbefore, List.append_cancel_left hrest⟩

/-- Where the separator does not stand at the front, a cut is one of the rest. -/
theorem FirstCut.cons {c : Char} (h : FirstCut separator text before after)
    (hfront : ¬ separator <+: c :: text) : FirstCut separator (c :: text) (c :: before) after := by
  refine ⟨by rw [h.1, List.cons_append], fun earlier later hcut => ?_⟩
  cases earlier with
  | nil => exact absurd ⟨later, hcut.symm⟩ hfront
  | cons other rest =>
      rw [List.cons_append, List.cons.injEq] at hcut
      exact Nat.succ_le_succ (h.2 rest later hcut.2)

/-- A character that the separator does not end with is behind every separator before it. -/
theorem exists_of_concat_eq {c : Char} {earlier later : List Char} (hseparator : separator ≠ [])
    (hlast : separator.getLast? ≠ some c) (h : text ++ [c] = earlier ++ (separator ++ later)) :
    ∃ rest, later = rest ++ [c] ∧ text = earlier ++ (separator ++ rest) := by
  rcases List.eq_nil_or_concat later with rfl | ⟨rest, other, rfl⟩
  · refine absurd ?_ hlast
    have hends := congrArg List.getLast? h
    rw [List.append_nil, List.getLast?_concat, List.getLast?_append_of_ne_nil _ hseparator] at hends
    exact hends.symm
  · rw [List.concat_eq_append, ← List.append_assoc separator, ← List.append_assoc earlier] at h
    obtain ⟨htext, hother⟩ := List.append_inj' h rfl
    obtain rfl := List.singleton_inj.mp hother
    exact ⟨rest, List.concat_eq_append, htext⟩

theorem FirstCut.concat {c : Char} (h : FirstCut separator text before after)
    (hseparator : separator ≠ []) (hlast : separator.getLast? ≠ some c) :
    FirstCut separator (text ++ [c]) before (after ++ [c]) := by
  refine ⟨by rw [h.1, List.append_assoc, List.append_assoc], fun earlier later hcut => ?_⟩
  obtain ⟨rest, -, htext⟩ := exists_of_concat_eq hseparator hlast hcut
  exact h.2 earlier rest htext

theorem isInfix_concat_iff {c : Char} (hseparator : separator ≠ [])
    (hlast : separator.getLast? ≠ some c) : separator <:+: text ++ [c] ↔ separator <:+: text := by
  refine ⟨?_, fun h => h.trans (List.infix_append' [] text [c])⟩
  rintro ⟨earlier, later, h⟩
  rw [List.append_assoc] at h
  obtain ⟨rest, -, htext⟩ := exists_of_concat_eq hseparator hlast h.symm
  exact ⟨earlier, rest, by rw [htext, List.append_assoc]⟩

theorem firstCut_of_cutAt (hseparator : separator ≠ [])
    (h : cutAt separator text = some (before, after)) : FirstCut separator text before after := by
  induction text generalizing before with
  | nil =>
      rw [cutAt, if_neg hseparator] at h
      cases h
  | cons c rest ih =>
      rw [cutAt] at h
      split at h
      · rename_i hfront
        obtain ⟨later, hlater⟩ := List.isPrefixOf_iff_prefix.mp hfront
        obtain ⟨rfl, rfl⟩ := Prod.mk.inj (Option.some.inj h)
        refine ⟨?_, fun earlier later _ => Nat.zero_le _⟩
        rw [← hlater, List.drop_left, List.nil_append]
      · rename_i hfront
        obtain ⟨⟨first, last⟩, hcut, hparts⟩ := Option.map_eq_some_iff.mp h
        obtain ⟨rfl, rfl⟩ := Prod.mk.inj hparts
        exact (ih hcut).cons fun hprefix => hfront (List.isPrefixOf_iff_prefix.mpr hprefix)

theorem not_isInfix_of_cutAt (hseparator : separator ≠ []) (h : cutAt separator text = none) :
    ¬ separator <:+: text := by
  induction text with
  | nil => exact fun hinfix => hseparator (List.infix_nil.mp hinfix)
  | cons c rest ih =>
      rw [cutAt] at h
      split at h
      · cases h
      · rename_i hfront
        rw [List.infix_cons_iff, not_or]
        exact ⟨fun hprefix => hfront (List.isPrefixOf_iff_prefix.mpr hprefix),
          ih (Option.map_eq_none_iff.mp h)⟩

theorem cutAt_eq_some_iff (hseparator : separator ≠ []) :
    cutAt separator text = some (before, after) ↔ FirstCut separator text before after := by
  refine ⟨firstCut_of_cutAt hseparator, fun hcut => ?_⟩
  cases h : cutAt separator text with
  | none => exact absurd hcut.isInfix (not_isInfix_of_cutAt hseparator h)
  | some cut =>
      obtain ⟨hbefore, hafter⟩ := (firstCut_of_cutAt hseparator h).unique hcut
      rw [← hbefore, ← hafter]

theorem cutAt_eq_none_iff (hseparator : separator ≠ []) :
    cutAt separator text = none ↔ ¬ separator <:+: text := by
  refine ⟨not_isInfix_of_cutAt hseparator, fun hinfix => ?_⟩
  cases h : cutAt separator text with
  | none => rfl
  | some cut => exact absurd (firstCut_of_cutAt hseparator h).isInfix hinfix

end MetricLayer.Text
