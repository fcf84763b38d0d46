import MetricLayer.Text.Blank
import MetricLayer.Text.Word

namespace MetricLayer

abbrev CharSet := Char → Bool

namespace CharSet

def none : CharSet := fun _ => false

def single (c : Char) : CharSet := fun d => d = c

def range (first last : Char) : CharSet := fun c => decide (first ≤ c) && decide (c ≤ last)

def negate (set : CharSet) : CharSet := fun c => !set c

def negateIf (negated : Bool) (set : CharSet) : CharSet := if negated then set.negate else set

def union (first second : CharSet) : CharSet := fun c => first c || second c

def intersection (first second : CharSet) : CharSet := fun c => first c && second c

def difference (first second : CharSet) : CharSet := fun c => first c && !second c

def symmetricDifference (first second : CharSet) : CharSet := fun c => first c != second c

/-- The set without regard to the case of ASCII letters. -/
def foldingCase (set : CharSet) : CharSet := fun c => set c || set c.toLower || set c.toUpper

def isAscii (c : Char) : Bool := decide (c.toNat < 128)

def ascii (set : CharSet) : CharSet := fun c => isAscii c && set c

/-- Digits, white space or the characters of words, of all scripts or of ASCII only. -/
def ofClassLetter (unicode : Bool) (letter : Char) : CharSet :=
  let limit (set : CharSet) : CharSet := if unicode then set else ascii set
  match letter with
  | 'd' => limit Text.isDecimalDigit
  | 's' => limit Text.isBlank
  | _ => limit Text.isWordChar

def isPunctuation (c : Char) : Bool :=
  let code := c.toNat
  (33 ≤ code && code ≤ 47) || (58 ≤ code && code ≤ 64) || (91 ≤ code && code ≤ 96) ||
    (123 ≤ code && code ≤ 126)

def ofAsciiName? : String → Option CharSet
  | "alnum" => some Char.isAlphanum
  | "alpha" => some Char.isAlpha
  | "ascii" => some isAscii
  | "blank" => some fun c => c = ' ' || c = '\t'
  | "cntrl" => some fun c => decide (c.toNat < 32) || c.toNat = 127
  | "digit" => some Char.isDigit
  | "graph" => some (range '!' '~')
  | "lower" => some Char.isLower
  | "print" => some (range ' ' '~')
  | "punct" => some isPunctuation
  | "space" => some (ascii Text.isBlank)
  | "upper" => some Char.isUpper
  | "word" => some fun c => c.isAlphanum || c = '_'
  | "xdigit" => some fun c => c.isDigit || range 'a' 'f' c || range 'A' 'F' c
  | _ => Option.none

def isNumber (c : Char) : Bool := Text.isDecimalDigit c || Text.otherNumberClass.has c

def isSymbol (c : Char) : Bool := "$+<=>^`|~".toList.contains c

/-- Names of properties are told apart by their letters only, whatever their case. -/
def propertyKey (name : String) : String :=
  String.ofList ((name.toList.filter fun c => c ≠ ' ' && c ≠ '_' && c ≠ '-').map Char.toLower)

/-- The properties that are known. Case, punctuation and symbols are those of ASCII. -/
def ofProperty? (name : String) : Option CharSet :=
  match propertyKey name with
  | "any" => some fun _ => true
  | "ascii" => some isAscii
  | "l" | "letter" | "alphabetic" | "alpha" =>
      some fun c => Text.isAlphanumeric c && !isNumber c
  | "lu" | "uppercaseletter" | "uppercase" | "upper" => some Char.isUpper
  | "ll" | "lowercaseletter" | "lowercase" | "lower" => some Char.isLower
  | "n" | "number" => some isNumber
  | "nd" | "decimalnumber" | "digit" => some Text.isDecimalDigit
  | "p" | "punctuation" | "punct" => some fun c => isPunctuation c && !isSymbol c
  | "s" | "symbol" => some isSymbol
  | "z" | "separator" | "zs" | "spaceseparator" => some fun c => Text.isBlank c && ¬ c.toNat < 32
  | "whitespace" | "space" => some Text.isBlank
  | "c" | "other" | "cc" | "control" | "cntrl" =>
      some fun c => decide (c.toNat < 32) || (decide (127 ≤ c.toNat) && decide (c.toNat < 160))
  | _ => Option.none

end CharSet

end MetricLayer
