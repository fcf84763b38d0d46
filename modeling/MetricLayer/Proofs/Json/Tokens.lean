import MetricLayer.Proofs.Json.Strings

/-!
# String tokens

A string in a JSON text is made of pieces: characters that stand for themselves, escapes of one
letter, and code units of four hexadecimal digits. A code unit that is a surrogate denotes a
character only together with the code unit next to it, so not every token denotes a string. One
that does is read as that string, whatever follows it.
-/

namespace MetricLayer.Json

/-- A character that stands for itself. -/
structure PlainChar where
  char : Char
  printable : 32 ≤ char.toNat
  ne_quote : char ≠ '"'
  ne_backslash : char ≠ '\\'

inductive Letter where
  | quote
  | backslash
  | slash
  | backspace
  | formFeed
  | lineFeed
  | carriageReturn
  | tab

namespace Letter

def written : Letter → Char
  | quote => '"'
  | backslash => '\\'
  | slash => '/'
  | backspace => 'b'
  | formFeed => 'f'
  | lineFeed => 'n'
  | carriageReturn => 'r'
  | tab => 't'

def char : Letter → Char
  | quote => '"'
  | backslash => '\\'
  | slash => '/'
  | backspace => '\x08'
  | formFeed => '\x0c'
  | lineFeed => '\n'
  | carriageReturn => '\r'
  | tab => '\t'

theorem escape?_written (letter : Letter) (rest : List Char) :
    escape? (letter.written :: rest) = some (letter.char, rest) := by
  cases letter <;> rfl

end Letter

structure HexDigit where
  value : Fin 16
  capital : Bool

namespace HexDigit

def char (digit : HexDigit) : Char :=
  if digit.capital then (Nat.digitChar digit.value).toUpper else Nat.digitChar digit.value

theorem hexValue?_char (digit : HexDigit) : hexValue? digit.char = some digit.value.val := by
  obtain ⟨value, capital⟩ := digit
  have hall : ∀ (value : Fin 16) (capital : Bool),
      hexValue? (char ⟨value, capital⟩) = some value.val := by decide
  exact hall value capital

end HexDigit

structure CodeUnit where
  first : HexDigit
  second : HexDigit
  third : HexDigit
  fourth : HexDigit

namespace CodeUnit

variable {unit low : CodeUnit}

def value (unit : CodeUnit) : Nat :=
  ((unit.first.value * 16 + unit.second.value) * 16 + unit.third.value) * 16 + unit.fourth.value

def digits (unit : CodeUnit) : List Char :=
  [unit.first.char, unit.second.char, unit.third.char, unit.fourth.char]

def IsHigh (unit : CodeUnit) : Prop := 0xD800 ≤ unit.value ∧ unit.value < 0xDC00

def IsLow (unit : CodeUnit) : Prop := 0xDC00 ≤ unit.value ∧ unit.value < 0xE000

instance (unit : CodeUnit) : Decidable unit.IsHigh := inferInstanceAs (Decidable (_ ∧ _))

instance (unit : CodeUnit) : Decidable unit.IsLow := inferInstanceAs (Decidable (_ ∧ _))

/-- The character outside the basic plane that a pair of surrogates denotes. -/
def pair (high low : CodeUnit) : Char :=
  Char.ofNat (0x10000 + (high.value - 0xD800) * 0x400 + (low.value - 0xDC00))

theorem unit?_digits (unit : CodeUnit) (rest : List Char) :
    unit? (unit.digits ++ rest) = some (unit.value, rest) := by
  simp [digits, unit?, HexDigit.hexValue?_char, value]

theorem escape?_digits (hhigh : ¬ unit.IsHigh) (hlow : ¬ unit.IsLow) (rest : List Char) :
    escape? ('u' :: (unit.digits ++ rest)) = some (Char.ofNat unit.value, rest) := by
  rw [IsHigh] at hhigh
  rw [IsLow] at hlow
  rw [escape?, unicodeChar?, unit?_digits]
  simp [hhigh, hlow]

theorem escape?_pair (hhigh : unit.IsHigh) (hlow : low.IsLow) (rest : List Char) :
    escape? ('u' :: (unit.digits ++ '\\' :: 'u' :: (low.digits ++ rest))) =
      some (unit.pair low, rest) := by
  rw [IsHigh] at hhigh
  rw [IsLow] at hlow
  rw [escape?, unicodeChar?, unit?_digits]
  simp [hhigh, hlow, unit?_digits, pair]

end CodeUnit

inductive Piece where
  | plain (c : PlainChar)
  | letter (escape : Letter)
  | unit (digits : CodeUnit)

def Piece.chars : Piece → List Char
  | plain c => [c.char]
  | letter escape => ['\\', escape.written]
  | unit code => '\\' :: 'u' :: code.digits

abbrev Token := List Piece

namespace Token

/-- The pieces and the closing quote. -/
def inner (token : Token) : List Char := token.flatMap Piece.chars ++ ['"']

def text (token : Token) : List Char := '"' :: token.inner

/-- The characters that the pieces denote, if every surrogate is one of a pair. -/
def content? : Token → Option (List Char)
  | [] => some []
  | .plain c :: rest => (content? rest).map (c.char :: ·)
  | .letter letter :: rest => (content? rest).map (letter.char :: ·)
  | .unit unit :: rest =>
      if unit.IsHigh then
        match rest with
        | .unit low :: rest =>
            if low.IsLow then (content? rest).map (unit.pair low :: ·) else none
        | _ => none
      else if unit.IsLow then none
      else (content? rest).map (Char.ofNat unit.value :: ·)

/-- Every surrogate is one of a pair. -/
def Paired (token : Token) : Prop := token.content?.isSome

theorem readString?_plain (c : PlainChar) (bound : Nat) (rest : List Char) :
    readString? (bound + 1) (c.char :: rest) =
      (readString? bound rest).map fun (others, left) => (c.char :: others, left) := by
  rw [readString?]
  · rw [if_neg (by have := c.printable; omega)]
    cases readString? bound rest <;> simp
  · exact c.ne_quote
  · exact c.ne_backslash

theorem readString?_letter (letter : Letter) (bound : Nat) (rest : List Char) :
    readString? (bound + 1) ('\\' :: letter.written :: rest) =
      (readString? bound rest).map fun (others, left) => (letter.char :: others, left) :=
  readString?_backslash (letter.escape?_written rest) bound

theorem inner_cons_append (piece : Piece) (token : Token) (rest : List Char) :
    inner (piece :: token) ++ rest = piece.chars ++ (token.inner ++ rest) := by
  simp [inner]

theorem length_lt_inner (token : Token) : token.length < token.inner.length := by
  induction token with
  | nil => decide
  | cons piece token ih =>
      have hpos : 0 < piece.chars.length := by cases piece <;> simp [Piece.chars]
      have hinner := congrArg List.length (inner_cons_append piece token [])
      simp only [List.append_nil, List.length_append] at hinner
      rw [hinner, List.length_cons]
      omega

theorem readString?_of_content? {token : Token} {content : List Char}
    (h : token.content? = some content) (rest : List Char) (more : Nat) :
    readString? (more + token.length + 1) (token.inner ++ rest) = some (content, rest) := by
  -- A piece takes one character from the bound, and a pair leaves one over.
  fun_induction content? token generalizing content more with
  | case1 =>
      obtain rfl := Option.some.inj h
      rfl
  | case2 c others ih =>
      obtain ⟨tail, htail, rfl⟩ := Option.map_eq_some_iff.mp h
      rw [inner_cons_append, Piece.chars, List.singleton_append, readString?_plain,
        List.length_cons, ← Nat.add_assoc, ih htail]
      rfl
  | case3 letter others ih =>
      obtain ⟨tail, htail, rfl⟩ := Option.map_eq_some_iff.mp h
      rw [inner_cons_append, Piece.chars, List.cons_append, List.singleton_append,
        readString?_letter, List.length_cons, ← Nat.add_assoc, ih htail]
      rfl
  | case4 unit hhigh low others hlow ih =>
      obtain ⟨tail, htail, rfl⟩ := Option.map_eq_some_iff.mp h
      have hescape := CodeUnit.escape?_pair hhigh hlow (inner others ++ rest)
      have hlength : more + (others.length + 1 + 1) = more + 1 + others.length + 1 := by omega
      rw [inner_cons_append, inner_cons_append, Piece.chars, Piece.chars, List.cons_append,
        List.cons_append, List.cons_append, List.cons_append, readString?_backslash hescape,
        List.length_cons, List.length_cons, hlength, ih htail]
      rfl
  | case5 => cases h
  | case6 => cases h
  | case7 => cases h
  | case8 unit others hhigh hlow ih =>
      obtain ⟨tail, htail, rfl⟩ := Option.map_eq_some_iff.mp h
      have hescape := CodeUnit.escape?_digits hhigh hlow (inner others ++ rest)
      rw [inner_cons_append, Piece.chars, List.cons_append, List.cons_append,
        readString?_backslash hescape, List.length_cons, ← Nat.add_assoc, ih htail]
      rfl

/-- A token is read as what it denotes, up to its closing quote. -/
theorem readString?_inner {token : Token} {content : List Char} (h : token.content? = some content)
    (rest : List Char) :
    readString? ((token.inner ++ rest).length + 1) (token.inner ++ rest) =
      some (content, rest) := by
  have hlength := token.length_lt_inner
  obtain ⟨more, hmore⟩ : ∃ more, (token.inner ++ rest).length = more + token.length :=
    ⟨(token.inner ++ rest).length - token.length, by rw [List.length_append]; omega⟩
  rw [hmore]
  exact readString?_of_content? h rest more

end Token

end MetricLayer.Json
