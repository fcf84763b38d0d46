import MetricLayer.Json.Writer
import MetricLayer.Proofs.Decimal.Digits
import MetricLayer.Proofs.Json.Strings

/-!
# What a JSON text determines

Null, truth values and numbers are written as one word each; the spelling of a tree keeps these
words and forgets which kinds of leaves they came from. A compact text determines the spelling of
its tree, so two trees have one text just when they have one spelling.
-/

namespace MetricLayer.Json

inductive Spelling where
  | word (text : List Char)
  | string (text : String)
  | array (items : List Spelling)
  | object (members : List (String × Spelling))

mutual

def spelling : Json → Spelling
  | string text => .string text
  | array items => .array (itemSpellings items)
  | object members => .object (memberSpellings members)
  | tree => .word tree.chars

def itemSpellings : List Json → List Spelling
  | [] => []
  | item :: rest => spelling item :: itemSpellings rest

def memberSpellings : List (String × Json) → List (String × Spelling)
  | [] => []
  | (name, value) :: rest => (name, spelling value) :: memberSpellings rest

end

theorem itemSpellings_cons (item : Json) (rest : List Json) :
    itemSpellings (item :: rest) = item.spelling :: itemSpellings rest := rfl

theorem memberSpellings_cons (name : String) (value : Json) (rest : List (String × Json)) :
    memberSpellings ((name, value) :: rest) = (name, value.spelling) :: memberSpellings rest := rfl

theorem itemSpellings_eq_map (items : List Json) : itemSpellings items = items.map spelling := by
  induction items with
  | nil => rfl
  | cons item rest ih => rw [itemSpellings, ih, List.map_cons]

theorem memberSpellings_eq_map (members : List (String × Json)) :
    memberSpellings members = members.map fun member => (member.1, member.2.spelling) := by
  induction members with
  | nil => rfl
  | cons member rest ih => rw [memberSpellings, ih, List.map_cons]

def isWordChar (c : Char) : Bool := c.isAlphanum || c == '-' || c == '+' || c == '.'

structure IsWord (text : List Char) : Prop where
  ne_nil : text ≠ []
  wordChars : ∀ c ∈ text, isWordChar c = true

/-- What follows a word does not prolong it. -/
def Stops (rest : List Char) : Prop := ∀ c ∈ rest.head?, isWordChar c = false

theorem isWordChar_of_isDigit {c : Char} (h : c.isDigit = true) : isWordChar c = true := by
  simp [isWordChar, Char.isAlphanum, h]

theorem isWordChar_of_mem_toDigits {n : Nat} {c : Char} (h : c ∈ Nat.toDigits 10 n) :
    isWordChar c = true :=
  isWordChar_of_isDigit (Decimal.isDigit_of_mem_toDigits h)

theorem stops_nil : Stops [] := by
  intro c hc
  cases hc

theorem stops_cons {c : Char} {rest : List Char} (h : isWordChar c = false) :
    Stops (c :: rest) := by
  intro head hhead
  obtain rfl := Option.some.inj hhead
  exact h

theorem IsWord.takeWhile_append {text rest : List Char} (h : IsWord text) (hrest : Stops rest) :
    (text ++ rest).takeWhile isWordChar = text :=
  Decimal.takeWhile_append_of_stop h.wordChars hrest

theorem IsWord.append_inj {first second rest left : List Char} (hfirst : IsWord first)
    (hsecond : IsWord second) (hrest : Stops rest) (hleft : Stops left)
    (h : first ++ rest = second ++ left) : first = second ∧ rest = left := by
  have htext : first = second := by
    rw [← hfirst.takeWhile_append hrest, h, hsecond.takeWhile_append hleft]
  subst htext
  exact ⟨rfl, List.append_cancel_left h⟩

theorem isWord_of_all {text : List Char} (hempty : text.isEmpty = false)
    (hall : text.all isWordChar = true) : IsWord text where
  ne_nil := List.isEmpty_eq_false_iff.mp hempty
  wordChars := List.all_eq_true.mp hall

theorem IsWord.exists_cons {text : List Char} (h : IsWord text) :
    ∃ c rest, text = c :: rest ∧ isWordChar c = true := by
  cases text with
  | nil => exact absurd rfl h.ne_nil
  | cons c rest => exact ⟨c, rest, rfl, h.wordChars c List.mem_cons_self⟩

theorem isWord_cons {c : Char} {rest : List Char} (hc : isWordChar c = true)
    (hrest : ∀ other ∈ rest, isWordChar other = true) : IsWord (c :: rest) where
  ne_nil := List.cons_ne_nil c rest
  wordChars := by
    intro other hmem
    rcases List.mem_cons.mp hmem with rfl | hmem
    · exact hc
    · exact hrest other hmem

theorem toList_toString_int (n : Int) :
    (toString n).toList = (if n < 0 then ['-'] else []) ++ Nat.toDigits 10 n.natAbs := by
  cases n with
  | ofNat n =>
      rw [if_neg (by simp)]
      exact Nat.toList_repr
  | negSucc n =>
      rw [if_pos (Int.negSucc_lt_zero n)]
      change ("-" ++ (n + 1).repr).toList = _
      rw [String.toList_append, Nat.toList_repr]
      rfl

theorem readInt?_writeInt (n : Int) : Decimal.readInt? (writeInt n) = some n := by
  rw [writeInt, toList_toString_int]
  by_cases hneg : n < 0
  · have habs : -(n.natAbs : Int) = n := by omega
    have hsign : Decimal.splitSign ('-' :: Nat.toDigits 10 n.natAbs) =
        (true, Nat.toDigits 10 n.natAbs) := rfl
    rw [if_pos hneg, List.singleton_append, Decimal.readInt?_of_splitSign hsign, if_pos rfl, habs]
  · have habs : (n.natAbs : Int) = n := by omega
    rw [if_neg hneg, List.nil_append,
      Decimal.readInt?_of_splitSign (Decimal.splitSign_toDigits _), habs]
    rfl

theorem isWord_writeInt (n : Int) : IsWord (writeInt n) where
  ne_nil := by
    rw [writeInt, toList_toString_int]
    exact List.append_ne_nil_of_right_ne_nil _ Nat.toDigits_ne_nil
  wordChars := by
    intro c hc
    rw [writeInt, toList_toString_int, List.mem_append] at hc
    rcases hc with hsign | hdigit
    · split at hsign
      · obtain rfl := List.mem_singleton.mp hsign
        rfl
      · cases hsign
    · exact isWordChar_of_mem_toDigits hdigit

open Decimal in
theorem isWordChar_of_mem_positionalText {wholePoint : Bool} {digits : List Char} {position : Int}
    (h : ∀ c ∈ digits, isWordChar c = true) :
    ∀ c ∈ positionalText wholePoint digits position, isWordChar c = true := by
  have hzeros : ∀ (n : Nat), ∀ c ∈ List.replicate n '0', isWordChar c = true := by
    intro n c hc
    rw [List.eq_of_mem_replicate hc]
    rfl
  intro c hc
  unfold positionalText at hc
  dsimp only at hc
  split at hc
  · simp only [List.cons_append, List.mem_cons, List.mem_append] at hc
    rcases hc with rfl | rfl | hc | hc
    · rfl
    · rfl
    · exact hzeros _ c hc
    · exact h c hc
  · split at hc
    · simp only [List.mem_append] at hc
      rcases hc with (hc | hc) | hc
      · exact h c hc
      · exact hzeros _ c hc
      · split at hc
        · rcases List.mem_cons.mp hc with rfl | hc
          · rfl
          · obtain rfl := List.mem_singleton.mp hc
            rfl
        · cases hc
    · rcases List.mem_append.mp hc with hc | hc
      · exact h c (List.mem_of_mem_take hc)
      · rcases List.mem_cons.mp hc with rfl | hc
        · rfl
        · exact h c (List.mem_of_mem_drop hc)

open Decimal in
theorem isWordChar_of_mem_exponentText {signed : Bool} {digits : List Char} {exponent : Int}
    (h : ∀ c ∈ digits, isWordChar c = true) :
    ∀ c ∈ exponentText signed digits exponent, isWordChar c = true := by
  intro c hc
  unfold exponentText at hc
  dsimp only at hc
  rw [List.append_assoc, List.mem_append, List.cons_append, List.mem_cons, List.mem_append] at hc
  rcases hc with hc | rfl | hc | hc
  · split at hc
    · obtain rfl := List.mem_singleton.mp hc
      rfl
    · exact h c hc
    · rename_i digit rest _
      rcases List.mem_cons.mp hc with rfl | hc
      · exact h c List.mem_cons_self
      · rcases List.mem_cons.mp hc with rfl | hc
        · rfl
        · exact h c (List.mem_cons_of_mem _ hc)
  · rfl
  · split at hc
    · obtain rfl := List.mem_singleton.mp hc
      rfl
    · split at hc
      · obtain rfl := List.mem_singleton.mp hc
        rfl
      · cases hc
  · exact isWordChar_of_mem_toDigits hc

open Decimal in
theorem isWord_magnitude (layout : Layout) (value : Binary) :
    IsWord (layout.magnitude value) := by
  have hdigits : ∀ c ∈ digitChars (value.shortest layout.tie).coefficient, isWordChar c = true :=
    fun c hc => isWordChar_of_mem_toDigits hc
  have hne : digitChars (value.shortest layout.tie).coefficient ≠ [] := Nat.toDigits_ne_nil
  unfold Layout.magnitude
  split
  · split
    · exact isWord_of_all rfl rfl
    · exact isWord_of_all rfl rfl
  · dsimp only
    split
    · refine ⟨?_, isWordChar_of_mem_positionalText hdigits⟩
      unfold positionalText
      dsimp only
      split
      · exact List.cons_ne_nil _ _
      · split
        · simp [hne]
        · simp
    · refine ⟨?_, isWordChar_of_mem_exponentText hdigits⟩
      simp [exponentText]

theorem isWord_writeFloat (x : Float) : IsWord (writeFloat x) := by
  unfold writeFloat
  split
  · rename_i hfinite
    rw [Decimal.isFinite] at hfinite
    obtain ⟨value, hvalue⟩ := Option.isSome_iff_exists.mp hfinite
    have hmagnitude := isWord_magnitude Decimal.Layout.json value
    rw [Decimal.Layout.write, hvalue]
    dsimp only
    rw [String.toList_ofList]
    split
    · exact isWord_cons rfl hmagnitude.wordChars
    · exact hmagnitude
  · exact isWord_of_all rfl rfl

/-- The character that opens the text of a tree that is not one word. -/
def opener? : Json → Option Char
  | string _ => some '"'
  | array _ => some '['
  | object _ => some '\x7b'
  | _ => none

theorem isWord_chars {tree : Json} (h : tree.opener? = none) : IsWord tree.chars := by
  cases tree with
  | null => exact isWord_of_all rfl rfl
  | bool value => cases value <;> exact isWord_of_all rfl rfl
  | int value => exact isWord_writeInt value
  | float value => exact isWord_writeFloat value
  | string value => cases h
  | array items => cases h
  | object members => cases h

theorem spelling_of_word {tree : Json} (h : tree.opener? = none) :
    tree.spelling = .word tree.chars := by
  cases tree with
  | null => rfl
  | bool value => rfl
  | int value => rfl
  | float value => rfl
  | string value => cases h
  | array items => cases h
  | object members => cases h

theorem exists_chars_cons (tree : Json) :
    ∃ c rest, tree.chars = c :: rest ∧
      (tree.opener? = some c ∨ tree.opener? = none ∧ isWordChar c = true) := by
  cases hopener : tree.opener? with
  | none =>
      obtain ⟨c, rest, htext, hc⟩ := (isWord_chars hopener).exists_cons
      exact ⟨c, rest, htext, .inr ⟨rfl, hc⟩⟩
  | some c =>
      cases tree with
      | string text => exact ⟨_, _, rfl, .inl hopener.symm⟩
      | array items => exact ⟨_, _, rfl, .inl hopener.symm⟩
      | object members => exact ⟨_, _, rfl, .inl hopener.symm⟩
      | _ => cases hopener

theorem isWordChar_of_opener? {tree : Json} {c : Char} (h : tree.opener? = some c) :
    isWordChar c = false := by
  cases tree with
  | string text =>
      obtain rfl := Option.some.inj h
      rfl
  | array items =>
      obtain rfl := Option.some.inj h
      rfl
  | object members =>
      obtain rfl := Option.some.inj h
      rfl
  | _ => cases h

theorem opener?_eq_of_append {tree other : Json} {rest left : List Char}
    (h : tree.chars ++ rest = other.chars ++ left) : tree.opener? = other.opener? := by
  obtain ⟨c, text, htext, hc⟩ := exists_chars_cons tree
  obtain ⟨d, others, hothers, hd⟩ := exists_chars_cons other
  rw [htext, hothers, List.cons_append, List.cons_append] at h
  obtain rfl : c = d := (List.cons.inj h).1
  rcases hc with hc | ⟨hc, hword⟩
  · rcases hd with hd | ⟨_, hword⟩
    · rw [hc, hd]
    · rw [isWordChar_of_opener? hc] at hword
      cases hword
  · rcases hd with hd | ⟨hd, _⟩
    · rw [isWordChar_of_opener? hd] at hword
      cases hword
    · rw [hc, hd]

theorem chars_append_ne_bracket (tree : Json) (text rest : List Char) :
    tree.chars ++ text ≠ ']' :: rest := by
  intro h
  obtain ⟨c, others, htext, hc⟩ := exists_chars_cons tree
  rw [htext, List.cons_append] at h
  obtain rfl : c = ']' := (List.cons.inj h).1
  rcases hc with hopener | ⟨_, hword⟩
  · cases tree <;> simp [opener?] at hopener
  · cases hword

/-- Items after the first one. -/
def moreItems : List Json → List Char
  | [] => []
  | item :: rest => ',' :: itemChars (item :: rest)

def moreMembers : List (String × Json) → List Char
  | [] => []
  | member :: rest => ',' :: memberChars (member :: rest)

theorem itemChars_cons (item : Json) (rest : List Json) :
    itemChars (item :: rest) = item.chars ++ moreItems rest := by
  cases rest with
  | nil => rw [itemChars, moreItems, List.append_nil]
  | cons next rest => rw [itemChars, moreItems]

theorem memberChars_cons (name : String) (value : Json) (rest : List (String × Json)) :
    memberChars ((name, value) :: rest) =
      writeString name ++ ':' :: (value.chars ++ moreMembers rest) := by
  cases rest with
  | nil => rw [memberChars, moreMembers, List.append_nil]
  | cons next rest => simp [memberChars, moreMembers]

theorem stops_moreItems (items : List Json) {close : Char} (h : isWordChar close = false)
    (rest : List Char) : Stops (moreItems items ++ close :: rest) := by
  cases items with
  | nil => exact stops_cons h
  | cons item items => exact stops_cons rfl

theorem stops_moreMembers (members : List (String × Json)) {close : Char}
    (h : isWordChar close = false) (rest : List Char) :
    Stops (moreMembers members ++ close :: rest) := by
  cases members with
  | nil => exact stops_cons h
  | cons member members => exact stops_cons rfl

mutual

theorem chars_append_inj (tree other : Json) {rest left : List Char} (hrest : Stops rest)
    (hleft : Stops left) (h : tree.chars ++ rest = other.chars ++ left) :
    tree.spelling = other.spelling ∧ rest = left := by
  have hopener := opener?_eq_of_append h
  by_cases hword : tree.opener? = none
  · have hother : other.opener? = none := by rw [← hopener, hword]
    obtain ⟨htext, hafter⟩ :=
      (isWord_chars hword).append_inj (isWord_chars hother) hrest hleft h
    exact ⟨by rw [spelling_of_word hword, spelling_of_word hother, htext], hafter⟩
  · cases tree with
    | string text =>
        cases other with
        | string text' =>
            obtain ⟨rfl, hafter⟩ := writeString_append_inj h
            exact ⟨rfl, hafter⟩
        | _ => simp [opener?] at hopener
    | array items =>
        cases other with
        | array items' =>
            rw [chars, chars] at h
            have hitems : itemChars items ++ ']' :: rest = itemChars items' ++ ']' :: left := by
              simpa using h
            obtain ⟨hspelling, hafter⟩ := itemChars_append_inj items items' hitems
            exact ⟨by rw [spelling, spelling, hspelling], hafter⟩
        | _ => simp [opener?] at hopener
    | object members =>
        cases other with
        | object members' =>
            rw [chars, chars] at h
            have hmembers : memberChars members ++ '\x7d' :: rest =
                memberChars members' ++ '\x7d' :: left := by
              simpa using h
            obtain ⟨hspelling, hafter⟩ := memberChars_append_inj members members' hmembers
            exact ⟨by rw [spelling, spelling, hspelling], hafter⟩
        | _ => simp [opener?] at hopener
    | _ => exact absurd rfl hword

theorem itemChars_append_inj (items others : List Json) {rest left : List Char}
    (h : itemChars items ++ ']' :: rest = itemChars others ++ ']' :: left) :
    itemSpellings items = itemSpellings others ∧ rest = left := by
  cases items with
  | nil =>
      cases others with
      | nil => exact ⟨rfl, (List.cons.inj h).2⟩
      | cons other others =>
          rw [itemChars_cons, List.append_assoc] at h
          exact absurd h.symm (chars_append_ne_bracket _ _ _)
  | cons item items =>
      cases others with
      | nil =>
          rw [itemChars_cons, List.append_assoc] at h
          exact absurd h (chars_append_ne_bracket _ _ _)
      | cons other others =>
          rw [itemChars_cons, itemChars_cons, List.append_assoc, List.append_assoc] at h
          obtain ⟨hhead, hmore⟩ := chars_append_inj item other (stops_moreItems items rfl rest)
            (stops_moreItems others rfl left) h
          cases items with
          | nil =>
              cases others with
              | nil =>
                  refine ⟨?_, (List.cons.inj hmore).2⟩
                  rw [itemSpellings_cons item, itemSpellings_cons other, hhead]
              | cons next others => simp [moreItems] at hmore
          | cons next items =>
              cases others with
              | nil => simp [moreItems] at hmore
              | cons next' others =>
                  obtain ⟨htail, hafter⟩ := itemChars_append_inj (next :: items) (next' :: others)
                    (List.cons.inj hmore).2
                  refine ⟨?_, hafter⟩
                  rw [itemSpellings_cons item, itemSpellings_cons other, hhead, htail]

theorem memberChars_append_inj (members others : List (String × Json)) {rest left : List Char}
    (h : memberChars members ++ '\x7d' :: rest = memberChars others ++ '\x7d' :: left) :
    memberSpellings members = memberSpellings others ∧ rest = left := by
  match members, others with
  | [], [] => exact ⟨rfl, (List.cons.inj h).2⟩
  | [], (name, value) :: others => simp [memberChars_cons, memberChars, writeString] at h
  | (name, value) :: members, [] => simp [memberChars_cons, memberChars, writeString] at h
  | (name, value) :: members, (name', value') :: others =>
      rw [memberChars_cons, memberChars_cons, List.append_assoc, List.append_assoc] at h
      obtain ⟨rfl, hvalue⟩ := writeString_append_inj h
      simp only [List.cons_append, List.append_assoc, List.cons.injEq, true_and] at hvalue
      obtain ⟨hhead, hmore⟩ := chars_append_inj value value' (stops_moreMembers members rfl rest)
        (stops_moreMembers others rfl left) hvalue
      match members, others with
      | [], [] =>
          refine ⟨?_, (List.cons.inj hmore).2⟩
          rw [memberSpellings_cons name value, memberSpellings_cons name value', hhead]
      | [], next :: others => simp [moreMembers] at hmore
      | next :: members, [] => simp [moreMembers] at hmore
      | next :: members, next' :: others =>
          obtain ⟨htail, hafter⟩ := memberChars_append_inj (next :: members) (next' :: others)
            (List.cons.inj hmore).2
          refine ⟨?_, hafter⟩
          rw [memberSpellings_cons name value, memberSpellings_cons name value', hhead, htail]

end

theorem spelling_eq_of_compact {tree other : Json} (h : tree.compact = other.compact) :
    tree.spelling = other.spelling := by
  have hchars : tree.chars = other.chars := String.ofList_injective h
  exact (chars_append_inj tree other stops_nil stops_nil (by rw [hchars])).1

mutual

def Spelling.chars : Spelling → List Char
  | word text => text
  | string text => writeString text
  | array items => '[' :: Spelling.itemChars items ++ [']']
  | object members => '\x7b' :: Spelling.memberChars members ++ ['\x7d']

def Spelling.itemChars : List Spelling → List Char
  | [] => []
  | [item] => Spelling.chars item
  | item :: next :: rest => Spelling.chars item ++ ',' :: Spelling.itemChars (next :: rest)

def Spelling.memberChars : List (String × Spelling) → List Char
  | [] => []
  | [(name, value)] => writeString name ++ ':' :: Spelling.chars value
  | (name, value) :: next :: rest =>
      writeString name ++ ':' :: Spelling.chars value ++ ',' :: Spelling.memberChars (next :: rest)

end

mutual

theorem chars_spelling : ∀ tree : Json, tree.spelling.chars = tree.chars
  | null => rfl
  | bool _ => rfl
  | int _ => rfl
  | float _ => rfl
  | string _ => rfl
  | array items => by rw [spelling, Spelling.chars, chars, itemChars_itemSpellings items]
  | object members => by rw [spelling, Spelling.chars, chars, memberChars_memberSpellings members]

theorem itemChars_itemSpellings : ∀ items : List Json,
    Spelling.itemChars (itemSpellings items) = itemChars items
  | [] => rfl
  | [item] => chars_spelling item
  | item :: next :: rest => by
      rw [itemSpellings_cons, itemSpellings_cons, Spelling.itemChars, chars_spelling item,
        ← itemSpellings_cons, itemChars_itemSpellings (next :: rest), itemChars]

theorem memberChars_memberSpellings : ∀ members : List (String × Json),
    Spelling.memberChars (memberSpellings members) = memberChars members
  | [] => rfl
  | [(name, value)] => by
      rw [memberSpellings_cons, memberSpellings, Spelling.memberChars, chars_spelling value,
        memberChars]
  | (name, value) :: next :: rest => by
      rw [memberSpellings_cons, memberSpellings, Spelling.memberChars, chars_spelling value,
        ← memberSpellings, memberChars_memberSpellings (next :: rest), memberChars]

end

theorem compact_eq_of_spelling {tree other : Json} (h : tree.spelling = other.spelling) :
    tree.compact = other.compact := by
  rw [compact, compact, ← chars_spelling, ← chars_spelling, h]

end MetricLayer.Json
