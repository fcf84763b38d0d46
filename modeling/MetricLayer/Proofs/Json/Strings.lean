import MetricLayer.Json.Text

namespace MetricLayer.Json

theorem hexValue?_hexDigit {n : Nat} (h : n < 16) : hexValue? (hexDigit n) = some n := by
  decide +revert

theorem unicodeChar?_control {c : Char} (h : c.toNat < 32) (rest : List Char) :
    unicodeChar? ('0' :: '0' :: hexDigit (c.toNat / 16) :: hexDigit (c.toNat % 16) :: rest) =
      some (c, rest) := by
  have hhigh : hexValue? (hexDigit (c.toNat / 16)) = some (c.toNat / 16) :=
    hexValue?_hexDigit (by omega)
  have hlow : hexValue? (hexDigit (c.toNat % 16)) = some (c.toNat % 16) :=
    hexValue?_hexDigit (by omega)
  have hunit : unit? ('0' :: '0' :: hexDigit (c.toNat / 16) :: hexDigit (c.toNat % 16) :: rest) =
      some (c.toNat, rest) := by
    have hzero : hexValue? '0' = some 0 := rfl
    have hsum : c.toNat / 16 * 16 + c.toNat % 16 = c.toNat := by omega
    simp [unit?, hzero, hhigh, hlow, hsum]
  rw [unicodeChar?, hunit]
  have hbelow : ¬ (0xD800 ≤ c.toNat ∧ c.toNat < 0xDC00) := by omega
  have hbelow' : ¬ (0xDC00 ≤ c.toNat ∧ c.toNat < 0xE000) := by omega
  simp [hbelow, hbelow', Char.ofNat_toNat]

theorem readString?_backslash {c : Char} {text rest : List Char}
    (h : escape? text = some (c, rest)) (bound : Nat) :
    readString? (bound + 1) ('\\' :: text) =
      (readString? bound rest).map fun (others, left) => (c :: others, left) := by
  rw [readString?, h]
  cases hrest : readString? bound rest <;> simp [hrest]

theorem readString?_escapeChar (c : Char) (bound : Nat) (rest : List Char) :
    readString? (bound + 1) (escapeChar c ++ rest) =
      (readString? bound rest).map fun (others, left) => (c :: others, left) := by
  unfold escapeChar
  split
  case h_8 hquote hbackslash _ _ _ _ _ =>
    split
    · rename_i hcontrol
      have hescape : escape? ('u' :: '0' :: '0' :: hexDigit (c.toNat / 16) ::
          hexDigit (c.toNat % 16) :: rest) = some (c, rest) := unicodeChar?_control hcontrol rest
      exact readString?_backslash hescape bound
    · rename_i hcontrol
      rw [List.singleton_append, readString?]
      · rw [if_neg hcontrol]
        cases readString? bound rest <;> simp
      · exact hquote
      · exact hbackslash
  all_goals exact readString?_backslash rfl bound

theorem readString?_flatMap_escapeChar (content rest : List Char) {bound : Nat}
    (h : content.length < bound) :
    readString? bound (content.flatMap escapeChar ++ '"' :: rest) = some (content, rest) := by
  induction content generalizing bound with
  | nil =>
      obtain ⟨left, rfl⟩ : ∃ left, bound = left + 1 := ⟨bound - 1, by simp at h; omega⟩
      rfl
  | cons c content ih =>
      rw [List.length_cons] at h
      obtain ⟨left, rfl⟩ : ∃ left, bound = left + 1 := ⟨bound - 1, by omega⟩
      rw [List.flatMap_cons, List.append_assoc, readString?_escapeChar, ih (by omega)]
      rfl

theorem writeString_append_inj {first second : String} {rest left : List Char}
    (h : writeString first ++ rest = writeString second ++ left) :
    first = second ∧ rest = left := by
  simp only [writeString, List.cons_append, List.cons.injEq, true_and, List.append_assoc,
    List.nil_append] at h
  have hfirst_lt : first.toList.length < first.toList.length + second.toList.length + 1 := by omega
  have hsecond_lt : second.toList.length < first.toList.length + second.toList.length + 1 := by
    omega
  have hfirst := readString?_flatMap_escapeChar first.toList rest hfirst_lt
  have hsecond := readString?_flatMap_escapeChar second.toList left hsecond_lt
  rw [h, hsecond] at hfirst
  obtain ⟨hcontent, hrest⟩ := Prod.mk.inj (Option.some.inj hfirst)
  exact ⟨(String.toList_inj.mp hcontent).symm, hrest.symm⟩

end MetricLayer.Json
