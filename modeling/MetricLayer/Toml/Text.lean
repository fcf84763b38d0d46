import MetricLayer.Json.Text

/-!
# Strings in TOML texts

Basic strings stand between double quotes and have escapes; literal strings stand between single
quotes and have none. Either kind may run over several lines between three quotes; a line break
right after the opening quotes does not count, and a backslash at the end of a line joins it with
the next word.
-/

namespace MetricLayer.Toml

def isSpace (c : Char) : Bool := c = ' ' || c = '\t'

/-- The control characters that may stand in no string and no comment. -/
def isControl (c : Char) : Bool := (decide (c.toNat < 32) && c != '\t') || c.toNat = 127

/-- A line feed, with or without a carriage return before it. -/
def newline? : List Char → Option (List Char)
  | '\n' :: rest => some rest
  | '\r' :: '\n' :: rest => some rest
  | _ => none

def hexDigits? (count : Nat) (text : List Char) : Option (Nat × List Char) :=
  let digits := text.take count
  if digits.length = count then
    (digits.foldlM (fun value c => (Json.hexValue? c).map (value * 16 + ·)) 0).map
      (·, text.drop count)
  else none

def scalarValue? (count : Nat) (text : List Char) : Option (Char × List Char) := do
  let (code, rest) ← hexDigits? count text
  if code < 0xD800 ∨ (0xE000 ≤ code ∧ code < 0x110000) then some (Char.ofNat code, rest) else none

def escape? : List Char → Option (Char × List Char)
  | 'b' :: rest => some ('\x08', rest)
  | 't' :: rest => some ('\t', rest)
  | 'n' :: rest => some ('\n', rest)
  | 'f' :: rest => some ('\x0c', rest)
  | 'r' :: rest => some ('\r', rest)
  | 'e' :: rest => some ('\x1b', rest)
  | '"' :: rest => some ('"', rest)
  | '\\' :: rest => some ('\\', rest)
  | 'x' :: rest => scalarValue? 2 rest
  | 'u' :: rest => scalarValue? 4 rest
  | 'U' :: rest => scalarValue? 8 rest
  | _ => none

def lineString? (quote : Char) : Nat → List Char → Option (List Char × List Char)
  | 0, _ => none
  | _ + 1, [] => none
  | bound + 1, c :: rest =>
      if c = quote then some ([], rest)
      else if c = '\\' ∧ quote = '"' then do
        let (c, rest) ← escape? rest
        let (others, rest) ← lineString? quote bound rest
        some (c :: others, rest)
      else if isControl c then none
      else do
        let (others, rest) ← lineString? quote bound rest
        some (c :: others, rest)

/-- Drops blanks and line breaks. A carriage return alone is neither. -/
def dropLines : List Char → List Char
  | '\n' :: rest => dropLines rest
  | '\r' :: '\n' :: rest => dropLines rest
  | c :: rest => if isSpace c then dropLines rest else c :: rest
  | [] => []

/-- A backslash that ends its line: what follows the blanks after it. -/
def joinedLine? (text : List Char) : Option (List Char) :=
  (newline? (text.dropWhile isSpace)).map dropLines

/-- Three to five closing quotes: the quotes that belong to the string, and the rest. -/
def closingQuotes? (quote : Char) (text : List Char) : Option (List Char × List Char) :=
  let count := min 5 (text.takeWhile (· = quote)).length
  if 3 ≤ count then some (List.replicate (count - 3) quote, text.drop count) else none

/-- The rest of a string of several lines. The number bounds the characters. -/
def blockString? (quote : Char) : Nat → List Char → Option (List Char × List Char)
  | 0, _ => none
  | _ + 1, [] => none
  | bound + 1, c :: rest =>
      let more (c : Char) (rest : List Char) : Option (List Char × List Char) := do
        let (others, rest) ← blockString? quote bound rest
        some (c :: others, rest)
      match closingQuotes? quote (c :: rest) with
      | some closed => some closed
      | none =>
          if c = '\\' ∧ quote = '"' then
            match joinedLine? rest with
            | some next => blockString? quote bound next
            | none => do
                let (c, rest) ← escape? rest
                more c rest
          else if c = '\n' ∨ (c = '\r' ∧ rest.head? = some '\n') then more c rest
          else if isControl c then none
          else more c rest

def string? : List Char → Option (List Char × List Char)
  | quote :: first :: second :: rest =>
      if quote ≠ '"' ∧ quote ≠ '\'' then none
      else if first = quote ∧ second = quote then
        blockString? quote (rest.length + 1) ((newline? rest).getD rest)
      else lineString? quote (rest.length + 3) (first :: second :: rest)
  | quote :: rest =>
      if quote ≠ '"' ∧ quote ≠ '\'' then none else lineString? quote (rest.length + 1) rest
  | [] => none

end MetricLayer.Toml
