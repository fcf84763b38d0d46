import MetricLayer.Toml.Text
import MetricLayer.Toml.Scalar
import MetricLayer.Toml.Table

/-!
# Reading TOML texts

`parse?` reads a document and gives the tree that it denotes. Arrays and inline tables may be nested
80 levels deep, and a key may have 80 parts.
-/

namespace MetricLayer.Toml

def maxDepth : Nat := 80

def isKeyChar (c : Char) : Bool := c.isAlphanum || c = '_' || c = '-'

def skipSpace (text : List Char) : List Char := text.dropWhile isSpace

/-- A comment up to the end of its line; control characters are refused. -/
def skipComment? : List Char → Option (List Char)
  | '#' :: rest =>
      let atEnd (text : List Char) : Bool :=
        match text with
        | [] | '\n' :: _ | '\r' :: '\n' :: _ => true
        | _ => false
      let left := rest.dropWhile fun c => !isControl c
      if atEnd left then some left else none
  | text => some text

/-- Blanks, comments and line breaks. The number bounds the lines. -/
def skipLines? : Nat → List Char → Option (List Char)
  | 0, _ => none
  | bound + 1, text => do
      let text ← skipComment? (skipSpace text)
      match newline? text with
      | some rest => skipLines? bound rest
      | none => some text

def skipBlank? (text : List Char) : Option (List Char) := skipLines? (text.length + 1) text

def keyPart? (text : List Char) : Option (String × List Char) :=
  match text with
  | quote :: _ =>
      if quote = '"' ∨ quote = '\'' then
        match text with
        | first :: second :: third :: _ =>
            if first = second ∧ second = third then none
            else (string? text).map fun (name, rest) => (String.ofList name, rest)
        | _ => (string? text).map fun (name, rest) => (String.ofList name, rest)
      else
        let name := text.takeWhile isKeyChar
        if name.isEmpty then none else some (String.ofList name, text.dropWhile isKeyChar)
  | [] => none

/-- A key: its tables, its name and the text after it. The number bounds the parts. -/
def key? : Nat → List Char → Option ((List String × String) × List Char)
  | 0, _ => none
  | bound + 1, text => do
      let (part, rest) ← keyPart? (skipSpace text)
      let rest := skipSpace rest
      match rest with
      | '.' :: rest =>
          let ((tables, name), rest) ← key? bound rest
          some ((part :: tables, name), rest)
      | _ => some (([], part), rest)

def readKey? (text : List Char) : Option ((List String × String) × List Char) :=
  (key? (text.length + 1) text).filter fun ((tables, _), _) => tables.length < maxDepth

def endsToken (c : Char) : Bool :=
  isSpace c || c = '\n' || c = '\r' || c = ',' || c = ']' || c = '\x7d' || c = '#' || c = '='

/-- A token that is not a string. A date takes in a time that follows it after one space. -/
def token (text : List Char) : List Char × List Char :=
  let first := text.takeWhile fun c => !endsToken c
  let rest := text.dropWhile fun c => !endsToken c
  match rest with
  | ' ' :: after =>
      let second := after.takeWhile fun c => !endsToken c
      if afterDate? first = some [] ∧ second.head?.any Char.isDigit then
        (first ++ ' ' :: second, after.dropWhile fun c => !endsToken c)
      else (first, rest)
  | _ => (first, rest)

/-- Items up to the closing bracket, with commas between them and perhaps one at the end. Blanks,
comments and line breaks may stand anywhere. The number bounds the items. -/
def items? {α : Type} (item : α → List Char → Option (α × List Char)) (close : Char) :
    Nat → α → List Char → Option (α × List Char)
  | 0, _, _ => none
  | bound + 1, sofar, text => do
      let text ← skipBlank? text
      if text.head? = some close then some (sofar, text.drop 1)
      else
        let (next, rest) ← item sofar text
        match ← skipBlank? rest with
        | ',' :: rest => items? item close bound next rest
        | c :: rest => if c = close then some (next, rest) else none
        | [] => none

/-- One assignment of an inline table. Lines may break around the equals sign too. -/
def inlineMember? (value : List Char → Option (Tree × List Char)) (entries : Entries)
    (text : List Char) : Option (Entries × List Char) := do
  let ((tables, name), rest) ← readKey? text
  let rest ← after? '=' (← skipBlank? rest)
  let (value, rest) ← value (← skipBlank? rest)
  let entries ← assign? value name tables entries
  some (entries, rest)

def arrayItem? (value : List Char → Option (Tree × List Char)) (items : List Tree)
    (text : List Char) : Option (List Tree × List Char) :=
  (value text).map fun (item, rest) => (items ++ [item], rest)

/-- A value at the start of a text. The number counts the levels that may still be opened. -/
def value? : Nat → List Char → Option (Tree × List Char)
  | levels + 1, '[' :: rest =>
      (items? (arrayItem? (value? levels)) ']' (rest.length + 1) [] rest).map
        fun (items, rest) => (.array items, rest)
  | levels + 1, '\x7b' :: rest =>
      (items? (inlineMember? (value? levels)) '\x7d' (rest.length + 1) [] rest).map
        fun (entries, rest) => (.table (entriesToTrees entries), rest)
  | _, text =>
      if text.head? = some '"' ∨ text.head? = some '\'' then
        (string? text).map fun (content, rest) => (.string (String.ofList content), rest)
      else
        let (word, rest) := token text
        (scalar? word).map (·, rest)

/-- The document so far, and the path of the table that the last header named. -/
structure Document where
  entries : Entries
  header : List String

/-- One line: nothing, a header or an assignment. What follows it on the line comes back. -/
def line? (document : Document) (text : List Char) : Option (Document × List Char) :=
  match text with
  | [] | '#' :: _ | '\n' :: _ | '\r' :: _ => some (document, text)
  | '[' :: '[' :: rest => do
      let ((tables, name), rest) ← readKey? rest
      let rest ← after? ']' rest >>= after? ']'
      let entries ← appendTable? tables name document.entries
      some (⟨entries, tables ++ [name]⟩, rest)
  | '[' :: rest => do
      let ((tables, name), rest) ← readKey? rest
      let rest ← after? ']' rest
      let entries ← openTable? tables name document.entries
      some (⟨entries, tables ++ [name]⟩, rest)
  | _ => do
      let ((tables, name), rest) ← readKey? text
      let rest ← after? '=' rest
      let (value, rest) ← value? maxDepth (skipSpace rest)
      let entries ← assignIn? document.header tables name value document.entries
      some ({ document with entries }, rest)

/-- The lines of a document. The number bounds them. -/
def lines? : Nat → Document → List Char → Option Document
  | 0, _, _ => none
  | bound + 1, document, text => do
      let (document, rest) ← line? document (skipSpace text)
      match ← skipComment? (skipSpace rest) with
      | [] => some document
      | rest => lines? bound document (← newline? rest)

/-- A byte order mark may stand in front of the text. -/
def dropMark : List Char → List Char
  | c :: rest => if c.toNat = 0xFEFF then rest else c :: rest
  | [] => []

def parse? (text : String) : Option Tree := do
  let chars := dropMark text.toList
  let document ← lines? (chars.length + 1) ⟨[], []⟩ chars
  some (.table (entriesToTrees document.entries))

end MetricLayer.Toml
