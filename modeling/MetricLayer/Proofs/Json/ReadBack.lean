import MetricLayer.Json.Reader
import MetricLayer.Proofs.Json.Spelling

/-!
# Reading compact texts

A compact text has no blanks, and what follows a value in it does not prolong the value. So its
values are read one after the other: words, strings and 64-bit numbers are read back, and an object
is read as the object of what its members are read as.
-/

namespace MetricLayer.Json

/-- With so many levels left to open, the text of the first tree is read as the second one. -/
def ReadsAs (levels : Nat) (tree other : Json) : Prop :=
  ∀ rest, Stops rest → value? levels (tree.chars ++ rest) = some (other, rest)

theorem isSpace_of_isWordChar {c : Char} (h : isWordChar c = true) : isSpace c = false := by
  refine Bool.eq_false_iff.mpr fun hspace => ?_
  simp only [isSpace, Bool.or_eq_true, decide_eq_true_eq] at hspace
  rcases hspace with ((rfl | rfl) | rfl) | rfl <;> cases h

theorem skipSpace_cons {c : Char} (h : isSpace c = false) (text : List Char) :
    skipSpace (c :: text) = c :: text := by
  rw [skipSpace, List.dropWhile_cons_of_neg (by simp [h])]

theorem skipSpace_chars_append (tree : Json) (rest : List Char) :
    skipSpace (tree.chars ++ rest) = tree.chars ++ rest := by
  obtain ⟨c, text, htext, hc⟩ := exists_chars_cons tree
  rw [htext, List.cons_append]
  apply skipSpace_cons
  rcases hc with hopener | ⟨_, hword⟩
  · cases tree <;> simp [opener?] at hopener <;> rw [← hopener] <;> rfl
  · exact isSpace_of_isWordChar hword

/-- Only brackets and braces open a level. -/
theorem value?_eq_scalar? {text : List Char} (hbracket : text.head? ≠ some '[')
    (hbrace : text.head? ≠ some '\x7b') (levels : Nat) : value? levels text = scalar? text := by
  rw [value?.eq_def]
  split
  · exact absurd rfl hbracket
  · exact absurd rfl hbrace
  · rfl

theorem readsAs_null (levels : Nat) : ReadsAs levels null null := fun rest _ => by
  rw [value?_eq_scalar? (by simp [chars]) (by simp [chars])]
  rfl

theorem readsAs_bool (levels : Nat) (value : Bool) : ReadsAs levels (bool value) (bool value) :=
  fun rest _ => by
    cases value
    · rw [value?_eq_scalar? (by simp [chars]) (by simp [chars])]
      rfl
    · rw [value?_eq_scalar? (by simp [chars]) (by simp [chars])]
      rfl

theorem readString?_writeString (text : String) (rest : List Char) {bound : Nat}
    (h : text.toList.length < bound) :
    readString? bound (text.toList.flatMap escapeChar ++ ['"'] ++ rest) =
      some (text.toList, rest) := by
  rw [List.append_assoc]
  exact readString?_flatMap_escapeChar text.toList rest h

theorem length_le_flatMap_escapeChar (content : List Char) :
    content.length ≤ (content.flatMap escapeChar).length := by
  induction content with
  | nil => exact Nat.le_refl _
  | cons c content ih =>
      have hpos : 0 < (escapeChar c).length := by
        unfold escapeChar
        split <;> try split
        all_goals simp
      rw [List.flatMap_cons, List.length_append, List.length_cons]
      omega

/-- The bound that the reader takes, one more than the length of the text, is large enough. -/
theorem length_lt_written (text : String) (rest : List Char) :
    text.toList.length < (text.toList.flatMap escapeChar ++ ['"'] ++ rest).length + 1 := by
  have hle := length_le_flatMap_escapeChar text.toList
  simp only [List.length_append]
  omega

theorem readsAs_string (levels : Nat) (text : String) :
    ReadsAs levels (string text) (string text) := fun rest _ => by
  rw [value?_eq_scalar? (by simp [chars, writeString]) (by simp [chars, writeString]), chars,
    writeString, List.cons_append, List.cons_append,
    scalar?, readString?_writeString text rest (length_lt_written text rest)]
  simp

theorem splitFraction?_of_stops {rest : List Char} (h : Stops rest) :
    Numeral.splitFraction? rest = some (none, rest) := by
  unfold Numeral.splitFraction?
  split
  · cases h '.' rfl
  · rfl

theorem splitExponent?_of_stops {rest : List Char} (h : Stops rest) :
    Numeral.splitExponent? rest = some (none, rest) := by
  cases rest with
  | nil => rfl
  | cons c rest =>
      have hexponent : ¬ (c = 'e' ∨ c = 'E') := by
        rintro (rfl | rfl)
        · cases h 'e' rfl
        · cases h 'E' rfl
      rw [Numeral.splitExponent?, if_neg hexponent]

theorem isDigit_eq_false_of_stops {rest : List Char} (h : Stops rest) :
    ∀ c ∈ rest.head?, c.isDigit = false := by
  intro c hc
  refine Bool.eq_false_iff.mpr fun hdigit => ?_
  have hword := isWordChar_of_isDigit hdigit
  rw [h c hc] at hword
  cases hword

/-- Only zero is written with a leading zero. -/
theorem head_toDigits_ne_zero {n : Nat} (h : 0 < n) : (Nat.toDigits 10 n).head? ≠ some '0' := by
  induction n using Nat.strongRecOn with
  | _ n ih =>
      by_cases hsmall : n < 10
      · have hdigit : ∀ d : Fin 10, 0 < d.val → [Nat.digitChar d.val].head? ≠ some '0' := by decide
        rw [Nat.toDigits_of_lt_base hsmall]
        exact hdigit ⟨n, hsmall⟩ h
      · have htail := ih (n / 10) (by omega) (by omega)
        obtain ⟨c, rest, htext⟩ := List.exists_cons_of_ne_nil
          (Nat.toDigits_ne_nil (n := n / 10) (b := 10))
        rw [Nat.toDigits_of_base_le (by decide) (Nat.not_lt.mp hsmall), htext]
        rw [htext] at htail
        exact htail

/-- The whole part of a numeral. -/
structure IsWhole (digits : List Char) : Prop where
  ne_nil : digits ≠ []
  isDigit : ∀ c ∈ digits, c.isDigit = true
  lead : digits.head? = some '0' → digits = ['0']

theorem isWhole_toDigits (n : Nat) : IsWhole (Nat.toDigits 10 n) where
  ne_nil := Nat.toDigits_ne_nil
  isDigit := fun _ hc => Decimal.isDigit_of_mem_toDigits hc
  lead := by
    intro hhead
    rcases Nat.eq_zero_or_pos n with rfl | hpos
    · exact Nat.toDigits_zero 10
    · exact absurd hhead (head_toDigits_ne_zero hpos)

section Numerals

variable {whole after left rest : List Char} {fraction : Option (List Char)}
  {exponent : Option (Bool × List Char)}

theorem IsWhole.splitWhole? (h : IsWhole whole) (hafter : ∀ c ∈ after.head?, c.isDigit = false) :
    Numeral.splitWhole? (whole ++ after) = some (whole, after) := by
  rw [Numeral.splitWhole?, Decimal.takeWhile_append_of_stop h.isDigit hafter,
    Decimal.dropWhile_append_of_stop h.isDigit hafter]
  split
  · exact absurd rfl h.ne_nil
  · rfl
  · rename_i hother
    exact absurd (List.cons.inj (h.lead rfl)).2 hother
  · rfl

theorem IsWhole.exists_cons (h : IsWhole whole) :
    ∃ c tail, whole = c :: tail ∧ c.isDigit = true := by
  obtain ⟨c, tail, htext⟩ := List.exists_cons_of_ne_nil h.ne_nil
  exact ⟨c, tail, htext, h.isDigit c (htext ▸ List.mem_cons_self)⟩

/-- A numeral is taken apart into its sign and its three parts. -/
theorem IsWhole.split? (h : IsWhole whole) (hafter : ∀ c ∈ after.head?, c.isDigit = false)
    (hfraction : Numeral.splitFraction? after = some (fraction, left))
    (hexponent : Numeral.splitExponent? left = some (exponent, rest)) (negative : Bool) :
    Numeral.split? ((if negative then ['-'] else []) ++ (whole ++ after)) =
      some (⟨negative, whole, fraction, exponent⟩, rest) := by
  have hwhole := h.splitWhole? hafter
  cases negative
  · obtain ⟨c, tail, htext, hc⟩ := h.exists_cons
    have hminus : ∀ others, whole ++ after ≠ '-' :: others := by
      rintro others heq
      rw [htext, List.cons_append] at heq
      rw [(List.cons.inj heq).1] at hc
      cases hc
    simp [Numeral.split?, hwhole, hfraction, hexponent]
  · simp [Numeral.split?, hwhole, hfraction, hexponent]

/-- The first character of a numeral is that of no other value. -/
theorem value?_of_head {text : List Char} {c : Char} (h : text.head? = some c)
    (hc : c = '-' ∨ c.isDigit = true) (levels : Nat) :
    value? levels text = (Numeral.split? text).bind fun split =>
      split.1.value?.map fun value => (value, split.2) := by
  have hne : ∀ other : Char, other ≠ '-' → other.isDigit = false → text.head? ≠ some other := by
    intro other hminus hdigit hother
    obtain rfl := Option.some.inj (h.symm.trans hother)
    rcases hc with rfl | hc
    · exact hminus rfl
    · rw [hc] at hdigit
      cases hdigit
  rw [value?_eq_scalar? (hne _ (by decide) rfl) (hne _ (by decide) rfl), scalar?.eq_def]
  split
  · exact absurd rfl (hne '"' (by decide) rfl)
  · exact absurd rfl (hne 'n' (by decide) rfl)
  · exact absurd rfl (hne 't' (by decide) rfl)
  · exact absurd rfl (hne 'f' (by decide) rfl)
  · cases hsplit : Numeral.split? text with
    | none => rfl
    | some split =>
        obtain ⟨numeral, rest⟩ := split
        cases hvalue : numeral.value? <;> simp [hvalue]

theorem IsWhole.value? (h : IsWhole whole) (hafter : ∀ c ∈ after.head?, c.isDigit = false)
    (hfraction : Numeral.splitFraction? after = some (fraction, left))
    (hexponent : Numeral.splitExponent? left = some (exponent, rest)) (negative : Bool)
    (levels : Nat) :
    Json.value? levels ((if negative then ['-'] else []) ++ (whole ++ after)) =
      (Numeral.value? ⟨negative, whole, fraction, exponent⟩).map fun value => (value, rest) := by
  obtain ⟨c, tail, htext, hc⟩ := h.exists_cons
  have hhead : ∃ c, ((if negative then ['-'] else []) ++ (whole ++ after)).head? = some c ∧
      (c = '-' ∨ c.isDigit = true) := by
    cases negative
    · exact ⟨c, by rw [htext]; rfl, .inr hc⟩
    · exact ⟨'-', rfl, .inl rfl⟩
  obtain ⟨d, hd, hkind⟩ := hhead
  rw [value?_of_head hd hkind, h.split? hafter hfraction hexponent]
  rfl

end Numerals

theorem value?_wholeNumeral {n : Int} (hlow : int64Min ≤ n) (hhigh : n ≤ int64Max) :
    Numeral.value? ⟨decide (n < 0), Nat.toDigits 10 n.natAbs, none, none⟩ = some (int n) := by
  rw [int64Min] at hlow
  rw [int64Max] at hhigh
  rw [Numeral.value?]
  dsimp only
  rw [Decimal.digitsValue_toDigits]
  by_cases hneg : n < 0
  · have habs : -(n.natAbs : Int) = n := by omega
    have hfits : 0 < (n.natAbs : Int) ∧ -(n.natAbs : Int) ≥ int64Min := by
      rw [int64Min]
      omega
    rw [if_pos (decide_eq_true hneg), if_pos hfits, habs]
  · have habs : (n.natAbs : Int) = n := by omega
    have hfits : (n.natAbs : Int) ≤ uint64Max := by
      rw [uint64Max]
      omega
    rw [decide_eq_false hneg, if_neg Bool.false_ne_true, if_pos hfits, habs]

theorem readsAs_int (levels : Nat) {n : Int} (hlow : int64Min ≤ n) (hhigh : n ≤ int64Max) :
    ReadsAs levels (int n) (int n) := fun rest hrest => by
  have hsign : writeInt n ++ rest = (if decide (n < 0) then ['-'] else []) ++
      (Nat.toDigits 10 n.natAbs ++ rest) := by
    rw [writeInt, toList_toString_int, List.append_assoc]
    simp only [decide_eq_true_eq]
  rw [chars, hsign, (isWhole_toDigits n.natAbs).value? (isDigit_eq_false_of_stops hrest)
    (splitFraction?_of_stops hrest) (splitExponent?_of_stops hrest),
    value?_wholeNumeral hlow hhigh]
  rfl

section Items

variable {α : Type} {item : List Char → Option (α × List Char)} {close c : Char}
  {text left rest : List Char} {first : α}

theorem itemsUntil?_comma (hfirst : item (skipSpace text) = some (first, left))
    (hleft : skipSpace left = ',' :: rest) (bound : Nat) :
    itemsUntil? item close (bound + 1) text =
      (itemsUntil? item close bound rest).map fun items => (first :: items.1, items.2) := by
  rw [itemsUntil?, hfirst]
  cases hitems : itemsUntil? item close bound rest <;> simp [hleft, hitems]

theorem itemsUntil?_close (hclose : close ≠ ',')
    (hfirst : item (skipSpace text) = some (first, left)) (hleft : skipSpace left = close :: rest)
    (bound : Nat) : itemsUntil? item close (bound + 1) text = some ([first], rest) := by
  rw [itemsUntil?, hfirst]
  simp [hleft, hclose]

theorem sequence?_close (htext : skipSpace text = close :: rest) :
    sequence? item close text = some ([], rest) := by
  rw [sequence?.eq_def, htext]
  exact if_pos rfl

theorem sequence?_eq_itemsUntil? (htext : skipSpace text = c :: rest) (hc : c ≠ close) :
    sequence? item close text = itemsUntil? item close text.length text := by
  rw [sequence?.eq_def, htext]
  exact if_neg hc

theorem member_eq_some {name : List Char} {value : List Char → Option (Json × List Char)}
    {tree : Json} {after : List Char}
    (hname : readString? (text.length + 1) text = some (name, left))
    (hleft : skipSpace left = ':' :: after) (hvalue : value (skipSpace after) = some (tree, rest)) :
    member value ('"' :: text) = some ((String.ofList name, tree), rest) := by
  rw [member, hname]
  simp [hleft, hvalue]

end Items

section Objects

variable {α : Type} {levels : Nat} {name : α → String} {tree other : α → Json}

theorem member_written {name : String} {tree other : Json} (h : ReadsAs levels tree other)
    {rest : List Char} (hrest : Stops rest) :
    member (value? levels) (writeString name ++ ':' :: (tree.chars ++ rest)) =
      some ((name, other), rest) := by
  have hname := readString?_writeString name (':' :: (tree.chars ++ rest))
    (length_lt_written name (':' :: (tree.chars ++ rest)))
  have hvalue : value? levels (skipSpace (tree.chars ++ rest)) = some (other, rest) := by
    rw [skipSpace_chars_append, h rest hrest]
  have hmember := member_eq_some hname (skipSpace_cons rfl _) hvalue
  rwa [String.ofList_toList] at hmember

/-- The members of the entries, each with its tree. -/
def members (name : α → String) (tree : α → Json) (entries : List α) : List (String × Json) :=
  entries.map fun entry => (name entry, tree entry)

theorem memberChars_members_cons (entry : α) (entries : List α) (rest : List Char) :
    memberChars (members name tree (entry :: entries)) ++ '\x7d' :: rest =
      writeString (name entry) ++ ':' :: ((tree entry).chars ++
        (moreMembers (members name tree entries) ++ '\x7d' :: rest)) := by
  rw [members, List.map_cons, memberChars_cons]
  simp [members]

theorem skipSpace_members_cons (entry : α) (entries : List α) (rest : List Char) :
    skipSpace (memberChars (members name tree (entry :: entries)) ++ '\x7d' :: rest) =
      memberChars (members name tree (entry :: entries)) ++ '\x7d' :: rest := by
  rw [memberChars_members_cons]
  exact skipSpace_cons rfl _

theorem member_memberChars {entry : α} (h : ReadsAs levels (tree entry) (other entry))
    (entries : List α) (rest : List Char) :
    member (value? levels)
        (skipSpace (memberChars (members name tree (entry :: entries)) ++ '\x7d' :: rest)) =
      some ((name entry, other entry),
        moreMembers (members name tree entries) ++ '\x7d' :: rest) := by
  have hstops : Stops (moreMembers (members name tree entries) ++ '\x7d' :: rest) :=
    stops_moreMembers _ rfl rest
  rw [skipSpace_members_cons, memberChars_members_cons]
  exact member_written h hstops

theorem itemsUntil?_memberChars {entry : α} {entries : List α}
    (h : ∀ held ∈ entry :: entries, ReadsAs levels (tree held) (other held)) (rest : List Char)
    {bound : Nat} (hbound : entries.length < bound) :
    itemsUntil? (member (value? levels)) '\x7d' bound
      (memberChars (members name tree (entry :: entries)) ++ '\x7d' :: rest) =
        some (members name other (entry :: entries), rest) := by
  induction entries generalizing entry bound with
  | nil =>
      obtain ⟨left, rfl⟩ : ∃ left, bound = left + 1 := ⟨bound - 1, by simp at hbound; omega⟩
      exact itemsUntil?_close (by decide) (member_memberChars (h entry List.mem_cons_self) [] rest)
        (skipSpace_cons rfl rest) left
  | cons next entries ih =>
      obtain ⟨left, rfl⟩ : ∃ left, bound = left + 1 := ⟨bound - 1, by simp at hbound; omega⟩
      have hleft : entries.length < left := by simp at hbound; omega
      have hmore := ih (fun held hheld => h held (List.mem_cons_of_mem entry hheld)) hleft
      have hcomma : skipSpace (moreMembers (members name tree (next :: entries)) ++ '\x7d' :: rest) =
          ',' :: (memberChars (members name tree (next :: entries)) ++ '\x7d' :: rest) :=
        skipSpace_cons rfl _
      rw [itemsUntil?_comma (member_memberChars (h entry List.mem_cons_self) (next :: entries) rest)
        hcomma left, hmore]
      rfl

theorem length_le_memberChars (members : List (String × Json)) :
    members.length ≤ (memberChars members).length := by
  induction members with
  | nil => exact Nat.zero_le _
  | cons member members ih =>
      obtain ⟨name, value⟩ := member
      have hmore : (moreMembers members).length = 0 ∧ members.length = 0 ∨
          (moreMembers members).length = (memberChars members).length + 1 := by
        cases members with
        | nil => exact .inl ⟨rfl, rfl⟩
        | cons next members => exact .inr rfl
      rw [memberChars_cons]
      simp only [List.length_append, List.length_cons]
      omega

theorem readsAs_object {entries : List α}
    (h : ∀ entry ∈ entries, ReadsAs levels (tree entry) (other entry)) :
    ReadsAs (levels + 1) (object (members name tree entries))
      (object (members name other entries)) := fun rest _ => by
  have hitems : sequence? (member (value? levels)) '\x7d'
      (memberChars (members name tree entries) ++ '\x7d' :: rest) =
        some (members name other entries, rest) := by
    cases entries with
    | nil => exact sequence?_close (skipSpace_cons rfl rest)
    | cons entry entries =>
        have hbound : entries.length < (memberChars (members name tree (entry :: entries)) ++
            '\x7d' :: rest).length := by
          have hle := length_le_memberChars (members name tree (entry :: entries))
          simp only [members, List.length_map, List.length_cons, List.length_append] at hle ⊢
          omega
        have hhead : skipSpace (memberChars (members name tree (entry :: entries)) ++
            '\x7d' :: rest) = '"' :: _ :=
          (skipSpace_members_cons entry entries rest).trans
            (memberChars_members_cons entry entries rest)
        rw [sequence?_eq_itemsUntil? hhead (by decide)]
        exact itemsUntil?_memberChars h rest hbound
  have htext : (object (members name tree entries)).chars ++ rest =
      '\x7b' :: (memberChars (members name tree entries) ++ '\x7d' :: rest) := by
    simp [chars]
  rw [htext, value?]
  simp [hitems]

end Objects

/-- The text of a tree is read as what the tree is read as, with nothing left. -/
theorem parse?_compact {tree other : Json} (h : ReadsAs maxDepth tree other) :
    parse? tree.compact = some other := by
  have hread := h [] stops_nil
  rw [List.append_nil] at hread
  have hstart := skipSpace_chars_append tree []
  rw [List.append_nil] at hstart
  rw [parse?, compact, String.toList_ofList, hstart, hread]
  rfl

end MetricLayer.Json
