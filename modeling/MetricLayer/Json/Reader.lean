import MetricLayer.Json.Number
import MetricLayer.Json.Text

namespace MetricLayer.Json

def isSpace (c : Char) : Bool := c = ' ' || c = '\n' || c = '\t' || c = '\r'

def skipSpace (text : List Char) : List Char := text.dropWhile isSpace

/-- One item or more, with commas between them, up to the closing bracket. The number bounds the
items. -/
def itemsUntil? {α : Type} (item : List Char → Option (α × List Char)) (close : Char) :
    Nat → List Char → Option (List α × List Char)
  | 0, _ => none
  | bound + 1, text => do
      let (first, rest) ← item (skipSpace text)
      match skipSpace rest with
      | [] => none
      | c :: rest =>
          if c = ',' then
            let (others, rest) ← itemsUntil? item close bound rest
            some (first :: others, rest)
          else if c = close then some ([first], rest)
          else none

/-- What follows an opening bracket: items up to the closing one, or the closing one at once. -/
def sequence? {α : Type} (item : List Char → Option (α × List Char)) (close : Char)
    (text : List Char) : Option (List α × List Char) :=
  match skipSpace text with
  | [] => none
  | c :: rest => if c = close then some ([], rest) else itemsUntil? item close text.length text

def member (value : List Char → Option (Json × List Char)) :
    List Char → Option ((String × Json) × List Char)
  | '"' :: text => do
      let (name, rest) ← readString? (text.length + 1) text
      match skipSpace rest with
      | ':' :: rest =>
          let (value, rest) ← value (skipSpace rest)
          some ((String.ofList name, value), rest)
      | _ => none
  | _ => none

def word? (word : List Char) (value : Json) (text : List Char) : Option (Json × List Char) :=
  if word.isPrefixOf text then some (value, text.drop word.length) else none

def scalar? (text : List Char) : Option (Json × List Char) :=
  match text with
  | '"' :: rest => do
      let (content, rest) ← readString? (rest.length + 1) rest
      some (string (String.ofList content), rest)
  | 'n' :: _ => word? "null".toList null text
  | 't' :: _ => word? "true".toList (bool true) text
  | 'f' :: _ => word? "false".toList (bool false) text
  | _ => do
      let (numeral, rest) ← Numeral.split? text
      let value ← numeral.value?
      some (value, rest)

/-- A value at the start of a text. The number counts the levels that may still be opened. -/
def value? : Nat → List Char → Option (Json × List Char)
  | levels + 1, '[' :: rest => do
      let (items, rest) ← sequence? (value? levels) ']' rest
      some (array items, rest)
  | levels + 1, '\x7b' :: rest => do
      let (members, rest) ← sequence? (member (value? levels)) '\x7d' rest
      some (object members, rest)
  | _, text => scalar? text

def maxDepth : Nat := 127

def parse? (text : String) : Option Json := do
  let (value, rest) ← value? maxDepth (skipSpace text.toList)
  if (skipSpace rest).isEmpty then some value else none

end MetricLayer.Json
