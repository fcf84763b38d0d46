import MetricLayer.Proofs.Json.Numerals
import MetricLayer.Proofs.Json.Tokens
import MetricLayer.Proofs.Lists.Correspondence

/-!
# Documents

The grammar of JSON texts. A document is what a text spells: words, numerals and string tokens, and
rows of them in brackets and braces. Blanks may stand between any two of these, so a document has
many texts. If its nesting is within the limit, its numerals are in range and its tokens denote
strings, then each of its texts is read as the one tree that the document denotes.
-/

namespace MetricLayer.Json

def Blank (text : List Char) : Prop := ∀ c ∈ text, c = ' ' ∨ c = '\n' ∨ c = '\t' ∨ c = '\r'

inductive Document where
  | null
  | bool (value : Bool)
  | number (numeral : Numeral) (formed : numeral.WellFormed)
  | string (token : Token)
  | array (items : List Document)
  | object (members : List (Token × Document))

/-- Parts in a row, with commas between them and blanks around each. -/
inductive Row : List (List Char) → List Char → Prop where
  | empty {blank : List Char} (hblank : Blank blank) : Row [] blank
  | last {before part after : List Char} (hbefore : Blank before) (hafter : Blank after) :
      Row [part] (before ++ part ++ after)
  | more {before part after next text : List Char} {parts : List (List Char)}
      (hbefore : Blank before) (hafter : Blank after) (hrest : Row (next :: parts) text) :
      Row (part :: next :: parts) (before ++ part ++ after ++ ',' :: text)

/-- A name, a colon and the text of a value. -/
def MemberText (name : Token) (value text : List Char) : Prop :=
  ∃ before after, Blank before ∧ Blank after ∧
    text = name.text ++ before ++ ':' :: after ++ value

namespace Document

mutual

/-- The texts of a document, from its first character to its last. -/
def Spelled : Document → List Char → Prop
  | null, text => text = "null".toList
  | bool value, text => text = (if value then "true" else "false").toList
  | number numeral _, text => numeral.HasText text
  | string token, text => text = token.text
  | array items, text =>
      ∃ parts inner, SpelledItems items parts ∧ Row parts inner ∧ text = '[' :: inner ++ [']']
  | object members, text =>
      ∃ parts inner, SpelledMembers members parts ∧ Row parts inner ∧
        text = '\x7b' :: inner ++ ['\x7d']

def SpelledItems : List Document → List (List Char) → Prop
  | [], parts => parts = []
  | item :: rest, parts =>
      ∃ part others, Spelled item part ∧ SpelledItems rest others ∧ parts = part :: others

def SpelledMembers : List (Token × Document) → List (List Char) → Prop
  | [], parts => parts = []
  | (name, value) :: rest, parts =>
      ∃ part others, (∃ text, Spelled value text ∧ MemberText name text part) ∧
        SpelledMembers rest others ∧ parts = part :: others

end

/-- The texts of a document, with blanks around it. -/
def HasText (document : Document) (text : List Char) : Prop :=
  ∃ before core after, Blank before ∧ Blank after ∧ document.Spelled core ∧
    text = before ++ core ++ after

def IsPrimitive : Document → Prop
  | array _ | object _ => False
  | _ => True

/-- The document opens no more levels than that, its numerals are in range, and its names and
strings are of that kind. -/
def Within (strings : Token → Prop) : Nat → Document → Prop
  | _, null | _, bool _ => True
  | _, number numeral _ => numeral.value?.isSome
  | _, string token => strings token
  | levels + 1, array items => ∀ item ∈ items, Within strings levels item
  | levels + 1, object members =>
      ∀ member ∈ members, strings member.1 ∧ Within strings levels member.2
  | 0, _ => False

def member? (read : Document → Option Json) (member : Token × Document) :
    Option (String × Json) := do
  let name ← member.1.content?
  let value ← read member.2
  some (String.ofList name, value)

/-- The tree that a document denotes. -/
def read? : Nat → Document → Option Json
  | _, null => some .null
  | _, bool value => some (.bool value)
  | _, number numeral _ => numeral.value?
  | _, string token => token.content?.map fun content => .string (String.ofList content)
  | levels + 1, array items => (items.mapM (read? levels)).map .array
  | levels + 1, object members =>
      (members.mapM (member? (read? levels))).map .object
  | 0, _ => none

end Document

theorem blank_nil : Blank [] := nofun

theorem blank_space : Blank [' '] := fun _ hc => .inl (List.mem_singleton.mp hc)

theorem Blank.isSpace {text : List Char} (h : Blank text) : ∀ c ∈ text, isSpace c = true := by
  intro c hc
  rcases h c hc with rfl | rfl | rfl | rfl <;> rfl

theorem skipSpace_blank_append {blank : List Char} (h : Blank blank) (rest : List Char) :
    skipSpace (blank ++ rest) = skipSpace rest := by
  rw [skipSpace, List.dropWhile_append_of_pos h.isSpace, skipSpace]

theorem isWordChar_of_isSpace {c : Char} (h : isSpace c = true) : isWordChar c = false := by
  refine Bool.eq_false_iff.mpr fun hword => ?_
  rw [isSpace_of_isWordChar hword] at h
  cases h

theorem stops_blank_append {blank rest : List Char} (h : Blank blank) (hrest : Stops rest) :
    Stops (blank ++ rest) := by
  cases blank with
  | nil => exact hrest
  | cons c blank => exact stops_cons (isWordChar_of_isSpace (h.isSpace c List.mem_cons_self))

section Rows

variable {α : Type} {item : List Char → Option (α × List Char)} {close : Char}
  {parts : List (List Char)} {values : List α} {inner : List Char}

/-- The part is read as that value, and does not start like a blank or the end of a row. -/
structure PartReads (item : List Char → Option (α × List Char)) (close : Char) (part : List Char)
    (value : α) : Prop where
  head : ∃ c text, part = c :: text ∧ isSpace c = false ∧ c ≠ close
  item_eq : ∀ rest, Stops rest → item (part ++ rest) = some (value, rest)

theorem PartReads.skipSpace_append {part : List Char} {value : α}
    (h : PartReads item close part value) (rest : List Char) :
    skipSpace (part ++ rest) = part ++ rest := by
  obtain ⟨c, text, rfl, hc, _⟩ := h.head
  exact skipSpace_cons hc _

theorem PartReads.item_skipSpace {before part after rest : List Char} {value : α}
    (h : PartReads item close part value) (hbefore : Blank before) (hafter : Blank after)
    (hrest : Stops rest) :
    item (skipSpace (before ++ part ++ after ++ rest)) = some (value, after ++ rest) := by
  rw [List.append_assoc, List.append_assoc, skipSpace_blank_append hbefore, h.skipSpace_append]
  exact h.item_eq _ (stops_blank_append hafter hrest)

theorem Row.length_le (h : Row parts inner) : parts.length ≤ inner.length + 1 := by
  induction h with
  | empty => exact Nat.zero_le _
  | last => simp
  | more hbefore hafter hrest ih =>
      simp only [List.length_append, List.length_cons] at ih ⊢
      omega

theorem Row.itemsUntil? (hrow : Row parts inner)
    (hparts : List.Forall₂ (PartReads item close) parts values) (hne : parts ≠ [])
    (hword : isWordChar close = false) (hspace : Json.isSpace close = false) (hcomma : close ≠ ',')
    (rest : List Char) {bound : Nat} (hbound : parts.length ≤ bound) :
    Json.itemsUntil? item close bound (inner ++ close :: rest) = some (values, rest) := by
  induction hrow generalizing values bound with
  | empty => exact absurd rfl hne
  | last hbefore hafter =>
      obtain ⟨left, rfl⟩ : ∃ left, bound = left + 1 := ⟨bound - 1, by simp at hbound; omega⟩
      cases hparts with
      | cons hpart hnone =>
          cases hnone
          refine itemsUntil?_close hcomma
            (hpart.item_skipSpace hbefore hafter (stops_cons hword)) ?_ left
          rw [skipSpace_blank_append hafter, skipSpace_cons hspace]
  | @more before part after next text parts hbefore hafter hrest ih =>
      obtain ⟨left, rfl⟩ : ∃ left, bound = left + 1 := ⟨bound - 1, by simp at hbound; omega⟩
      cases hparts with
      | cons hpart hothers =>
          have hstops : Stops (',' :: (text ++ close :: rest)) := stops_cons rfl
          have hcomma' : skipSpace (after ++ ',' :: (text ++ close :: rest)) =
              ',' :: (text ++ close :: rest) := by
            rw [skipSpace_blank_append hafter, skipSpace_cons rfl]
          have hmore := ih hothers (List.cons_ne_nil next parts) (Nat.le_of_succ_le_succ hbound)
          rw [List.append_assoc, List.cons_append,
            itemsUntil?_comma (hpart.item_skipSpace hbefore hafter hstops) hcomma' left, hmore]
          rfl

/-- A row that is not empty does not start like its end. -/
theorem Row.exists_head {part : List Char} {value : α} (hrow : Row (part :: parts) inner)
    (hpart : PartReads item close part value) (rest : List Char) :
    ∃ c text, skipSpace (inner ++ rest) = c :: text ∧ c ≠ close := by
  obtain ⟨before, after, hbefore, rfl⟩ :
      ∃ before after, Blank before ∧ inner = before ++ (part ++ after) := by
    cases hrow with
    | last hbefore _ => exact ⟨_, _, hbefore, List.append_assoc ..⟩
    | @more before _ after _ text _ hbefore =>
        exact ⟨before, after ++ ',' :: text, hbefore, by simp⟩
  obtain ⟨c, text, rfl, hspace, hc⟩ := hpart.head
  refine ⟨c, text ++ after ++ rest, ?_, hc⟩
  rw [List.append_assoc, skipSpace_blank_append hbefore, List.append_assoc, List.cons_append,
    skipSpace_cons hspace, List.append_assoc]

theorem Row.sequence? (hrow : Row parts inner)
    (hparts : List.Forall₂ (PartReads item close) parts values)
    (hword : isWordChar close = false) (hspace : Json.isSpace close = false) (hcomma : close ≠ ',')
    (rest : List Char) :
    Json.sequence? item close (inner ++ close :: rest) = some (values, rest) := by
  cases hparts with
  | nil =>
      cases hrow with
      | empty hblank =>
          refine sequence?_close ?_
          rw [skipSpace_blank_append hblank, skipSpace_cons hspace]
  | @cons part value parts values hpart hothers =>
      obtain ⟨c, text, htext, hc⟩ := hrow.exists_head hpart (close :: rest)
      have hbound : (part :: parts).length ≤ (inner ++ close :: rest).length := by
        have hle := hrow.length_le
        simp only [List.length_append, List.length_cons] at hle ⊢
        omega
      rw [sequence?_eq_itemsUntil? htext hc]
      exact hrow.itemsUntil? (.cons hpart hothers) (List.cons_ne_nil part parts) hword hspace hcomma
        rest hbound

end Rows

namespace Document

variable {document : Document} {text rest : List Char} {tree : Json} {levels : Nat}

theorem spelledItems_iff {items : List Document} {parts : List (List Char)} :
    SpelledItems items parts ↔ List.Forall₂ Spelled items parts := by
  induction items generalizing parts with
  | nil => simp [SpelledItems]
  | cons item items ih =>
      rw [SpelledItems, List.forall₂_cons_left_iff]
      simp only [ih]

theorem spelledMembers_iff {members : List (Token × Document)} {parts : List (List Char)} :
    SpelledMembers members parts ↔ List.Forall₂
      (fun member part => ∃ text, Spelled member.2 text ∧ MemberText member.1 text part)
      members parts := by
  induction members generalizing parts with
  | nil => simp [SpelledMembers]
  | cons member members ih =>
      rw [SpelledMembers, List.forall₂_cons_left_iff]
      simp only [ih]

/-- The pairs have the names of the members and go with what these hold. -/
def Alongside {α : Type} (relation : Document → α → Prop) (members : List (Token × Document))
    (pairs : List (String × α)) : Prop :=
  List.Forall₂ (fun member pair =>
    member.1.content? = some pair.1.toList ∧ relation member.2 pair.2) members pairs

/-- What the members of that name hold, in order. -/
def named (name : String) (members : List (Token × Document)) : List Document :=
  (members.filter fun member => member.1.content? == some name.toList).map (·.2)

/-- Members of one name stay together and in order. -/
theorem Alongside.named {α : Type} {relation : Document → α → Prop}
    {members : List (Token × Document)} {pairs : List (String × α)}
    (h : Alongside relation members pairs) (name : String) :
    List.Forall₂ (fun held pair => relation held pair.2) (Document.named name members)
      (pairs.filter fun pair => pair.1 == name) := by
  have hname : ∀ (member : Token × Document) (pair : String × α),
      member.1.content? = some pair.1.toList ∧ relation member.2 pair.2 →
      ((member.1.content? == some name.toList) = true ↔ (pair.1 == name) = true) := by
    rintro member pair ⟨hcontent, _⟩
    rw [hcontent, beq_iff_eq, beq_iff_eq, Option.some_inj, String.toList_inj]
  rw [Document.named, List.forall₂_map_left_iff]
  exact (List.rel_filter (hname · ·) h).imp fun _ _ => And.right

theorem Alongside.forall_mem_iff {α : Type} {relation : Document → α → Prop}
    {members : List (Token × Document)} {pairs : List (String × α)} {p : Document → Prop}
    {q : α → Prop} (h : Alongside relation members pairs)
    (hiff : ∀ held value, relation held value → (p held ↔ q value)) :
    (∀ member ∈ members, p member.2) ↔ ∀ pair ∈ pairs, q pair.2 := by
  rw [Alongside] at h
  induction h with
  | nil => simp
  | cons hhead _ ih => rw [List.forall_mem_cons, List.forall_mem_cons, ih, hiff _ _ hhead.2]

theorem member?_eq_some_iff {read : Document → Option Json} {member : Token × Document}
    {entry : String × Json} :
    member? read member = some entry ↔ ∃ content tree, member.1.content? = some content ∧
      read member.2 = some tree ∧ (String.ofList content, tree) = entry := by
  simp [member?, Option.bind_eq_some_iff]

theorem exists_head (h : document.Spelled text) :
    ∃ c tail, text = c :: tail ∧ isSpace c = false ∧ c ≠ ']' := by
  cases document with
  | null =>
      obtain rfl : text = "null".toList := h
      exact ⟨'n', _, rfl, rfl, by decide⟩
  | bool value =>
      obtain rfl : text = (if value then "true" else "false").toList := h
      cases value
      · exact ⟨'f', _, rfl, rfl, by decide⟩
      · exact ⟨'t', _, rfl, rfl, by decide⟩
  | number numeral hformed =>
      obtain ⟨exponent, _, rfl⟩ := h
      obtain ⟨c, tail, hwhole, hc⟩ := hformed.whole.exists_cons
      rw [Numeral.withExponent]
      cases numeral.negative
      · refine ⟨c, _, by rw [hwhole]; rfl, isSpace_of_isWordChar (isWordChar_of_isDigit hc), ?_⟩
        rintro rfl
        cases hc
      · exact ⟨'-', _, rfl, rfl, by decide⟩
  | string token =>
      obtain rfl : text = token.text := h
      exact ⟨'"', _, rfl, rfl, by decide⟩
  | array items =>
      obtain ⟨_, _, _, _, rfl⟩ := h
      exact ⟨'[', _, rfl, rfl, by decide⟩
  | object members =>
      obtain ⟨_, _, _, _, rfl⟩ := h
      exact ⟨'\x7b', _, rfl, rfl, by decide⟩

theorem member_append {name : Token} {value : Document} {content valueText part : List Char}
    (hname : name.content? = some content) (hvalue : value.Spelled valueText)
    (hpart : MemberText name valueText part)
    (hread : value? levels (valueText ++ rest) = some (tree, rest)) :
    member (value? levels) (part ++ rest) = some ((String.ofList content, tree), rest) := by
  obtain ⟨before, after, hbefore, hafter, rfl⟩ := hpart
  obtain ⟨c, tail, htext, hc, _⟩ := exists_head hvalue
  have hstart : name.text ++ before ++ ':' :: after ++ valueText ++ rest =
      '"' :: (name.inner ++ (before ++ ':' :: (after ++ (valueText ++ rest)))) := by
    simp [Token.text]
  have hcolon : skipSpace (before ++ ':' :: (after ++ (valueText ++ rest))) =
      ':' :: (after ++ (valueText ++ rest)) := by
    rw [skipSpace_blank_append hbefore, skipSpace_cons rfl]
  have htree : value? levels (skipSpace (after ++ (valueText ++ rest))) = some (tree, rest) := by
    rw [skipSpace_blank_append hafter, htext, List.cons_append, skipSpace_cons hc,
      ← List.cons_append, ← htext]
    exact hread
  rw [hstart]
  exact member_eq_some (Token.readString?_inner hname _) hcolon htree

theorem value?_of_primitive (hprimitive : document.IsPrimitive) (htext : document.Spelled text)
    (htree : document.read? levels = some tree) (hrest : Stops rest) :
    value? levels (text ++ rest) = some (tree, rest) := by
  cases document with
  | null =>
      obtain rfl : text = "null".toList := htext
      rw [read?] at htree
      obtain rfl := Option.some.inj htree
      exact readsAs_null levels rest hrest
  | bool value =>
      obtain rfl : text = (Json.bool value).chars := htext.trans (by cases value <;> rfl)
      rw [read?] at htree
      obtain rfl := Option.some.inj htree
      exact readsAs_bool levels value rest hrest
  | number numeral hformed =>
      rw [read?] at htree
      rw [hformed.value?_of_hasText htext levels hrest, htree]
      rfl
  | string token =>
      obtain rfl : text = token.text := htext
      rw [read?] at htree
      obtain ⟨content, hcontent, rfl⟩ := Option.map_eq_some_iff.mp htree
      have hstring := Token.readString?_inner hcontent rest
      rw [value?_eq_scalar? (by simp [Token.text]) (by simp [Token.text]), Token.text,
        List.cons_append, scalar?, hstring]
      rfl
  | array items => exact hprimitive.elim
  | object members => exact hprimitive.elim

/-- What a document denotes is what each of its texts is read as. -/
theorem value?_of_spelled (htext : document.Spelled text) (htree : document.read? levels = some tree)
    (hrest : Stops rest) : value? levels (text ++ rest) = some (tree, rest) := by
  -- Brackets and braces take a level each, so the induction is on the levels.
  induction levels generalizing document text tree rest with
  | zero =>
      refine value?_of_primitive ?_ htext htree hrest
      cases document with
      | array items => cases htree
      | object members => cases htree
      | _ => trivial
  | succ levels ih =>
    cases document with
    | array items =>
        obtain ⟨parts, inner, hparts, hrow, rfl⟩ := htext
        obtain ⟨trees, htrees, rfl⟩ := Option.map_eq_some_iff.mp htree
        have hreads : List.Forall₂ (PartReads (value? levels) ']') parts trees :=
          forall₂_of_common (spelledItems_iff.mp hparts) (mapM_eq_some_iff.mp htrees)
            fun item part tree hpart hitem =>
              ⟨exists_head hpart, fun rest hrest => ih hpart hitem hrest⟩
        have hitems := hrow.sequence? hreads rfl rfl (by decide) rest
        rw [List.cons_append, List.cons_append, List.append_assoc, List.singleton_append, value?,
          hitems]
        rfl
    | object members =>
        obtain ⟨parts, inner, hparts, hrow, rfl⟩ := htext
        obtain ⟨trees, htrees, rfl⟩ := Option.map_eq_some_iff.mp htree
        have hreads : List.Forall₂ (PartReads (member (value? levels)) '\x7d') parts trees := by
          refine forall₂_of_common (spelledMembers_iff.mp hparts) (mapM_eq_some_iff.mp htrees) ?_
          rintro ⟨name, value⟩ part entry ⟨valueText, hvalue, hpart⟩ hentry
          obtain ⟨content, tree, hcontent, htree, rfl⟩ := member?_eq_some_iff.mp hentry
          refine ⟨?_, fun rest hrest => member_append hcontent hvalue hpart (ih hvalue htree hrest)⟩
          obtain ⟨before, after, _, _, rfl⟩ := hpart
          exact ⟨'"', _, rfl, rfl, by decide⟩
        have hmembers := hrow.sequence? hreads rfl rfl (by decide) rest
        rw [List.cons_append, List.cons_append, List.append_assoc, List.singleton_append, value?,
          hmembers]
        rfl
    | _ => exact value?_of_primitive (by trivial) htext htree hrest

theorem parse?_of_hasText {text : String} (htext : document.HasText text.toList)
    (htree : document.read? maxDepth = some tree) : parse? text = some tree := by
  obtain ⟨before, core, after, hbefore, hafter, hcore, htext⟩ := htext
  obtain ⟨c, tail, hhead, hc, _⟩ := exists_head hcore
  have hstart : skipSpace text.toList = core ++ after := by
    rw [htext, List.append_assoc, skipSpace_blank_append hbefore, hhead, List.cons_append,
      skipSpace_cons hc]
  have hstops : Stops after := List.append_nil after ▸ stops_blank_append hafter stops_nil
  have hend : skipSpace after = [] := List.append_nil after ▸ skipSpace_blank_append hafter []
  rw [parse?, hstart, value?_of_spelled hcore htree hstops]
  simp [hend]

theorem exists_of_read?_array {items : List Document}
    (h : (array items).read? levels = some tree) : ∃ trees, tree = .array trees := by
  cases levels with
  | zero => cases h
  | succ levels =>
      obtain ⟨trees, _, htree⟩ := Option.map_eq_some_iff.mp h
      exact ⟨trees, htree.symm⟩

theorem exists_of_read?_object {members : List (Token × Document)}
    (h : (object members).read? levels = some tree) :
    ∃ fewer entries, tree = .object entries ∧
      Alongside (fun held tree => held.read? fewer = some tree) members entries := by
  cases levels with
  | zero => cases h
  | succ fewer =>
      obtain ⟨entries, hentries, htree⟩ := Option.map_eq_some_iff.mp h
      refine ⟨fewer, entries, htree.symm, (mapM_eq_some_iff.mp hentries).imp ?_⟩
      intro member entry hentry
      obtain ⟨content, tree, hcontent, htree, rfl⟩ := member?_eq_some_iff.mp hentry
      exact ⟨by rw [hcontent, String.toList_ofList], htree⟩

theorem exists_read?_of_primitive (hprimitive : document.IsPrimitive)
    (h : document.Within Token.Paired levels) :
    ∃ tree, document.read? levels = some tree := by
  cases document with
  | null => exact ⟨.null, by rw [read?]⟩
  | bool value => exact ⟨.bool value, by rw [read?]⟩
  | number numeral _ =>
      rw [Within] at h
      rw [read?]
      exact Option.isSome_iff_exists.mp h
  | string token =>
      rw [Within] at h
      obtain ⟨content, hcontent⟩ := Option.isSome_iff_exists.mp h
      exact ⟨.string (String.ofList content), by rw [read?, hcontent]; rfl⟩
  | array items => exact hprimitive.elim
  | object members => exact hprimitive.elim

/-- Within the limits every document denotes a tree. -/
theorem exists_read? (h : document.Within Token.Paired levels) :
    ∃ tree, document.read? levels = some tree := by
  induction levels generalizing document with
  | zero =>
      refine exists_read?_of_primitive ?_ h
      cases document with
      | array items => cases h
      | object members => cases h
      | _ => trivial
  | succ levels ih =>
    cases document with
    | array items =>
        obtain ⟨trees, htrees⟩ := exists_mapM_iff.mpr fun item hitem => ih (h item hitem)
        exact ⟨.array trees, by rw [read?, htrees]; rfl⟩
    | object members =>
        have hmembers : ∃ trees, members.mapM (member? (read? levels)) = some trees := by
          refine exists_mapM_iff.mpr fun member hmember => ?_
          obtain ⟨hname, hvalue⟩ := h member hmember
          obtain ⟨content, hcontent⟩ := Option.isSome_iff_exists.mp hname
          obtain ⟨tree, htree⟩ := ih hvalue
          exact ⟨_, member?_eq_some_iff.mpr ⟨content, tree, hcontent, htree, rfl⟩⟩
        obtain ⟨trees, htrees⟩ := hmembers
        exact ⟨.object trees, by rw [read?, htrees]; rfl⟩
    | _ => exact exists_read?_of_primitive (by trivial) h

end Document

end MetricLayer.Json
