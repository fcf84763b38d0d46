import MetricLayer.Json.Text
import MetricLayer.Decimal.Layout

namespace MetricLayer.Json

def writeFloat (x : Float) : List Char :=
  if Decimal.isFinite x then (Decimal.Layout.json.write x).toList else "null".toList

def writeInt (n : Int) : List Char := (toString n).toList

mutual

def chars : Json → List Char
  | null => "null".toList
  | bool value => if value then "true".toList else "false".toList
  | int value => writeInt value
  | float value => writeFloat value
  | string value => writeString value
  | array items => '[' :: itemChars items ++ [']']
  | object members => '\x7b' :: memberChars members ++ ['\x7d']

def itemChars : List Json → List Char
  | [] => []
  | [item] => chars item
  | item :: next :: rest => chars item ++ ',' :: itemChars (next :: rest)

def memberChars : List (String × Json) → List Char
  | [] => []
  | [(name, value)] => writeString name ++ ':' :: chars value
  | (name, value) :: next :: rest =>
      writeString name ++ ':' :: chars value ++ ',' :: memberChars (next :: rest)

end

def compact (tree : Json) : String := String.ofList tree.chars

def lineBreak (level : Nat) : List Char := '\n' :: List.replicate (2 * level) ' '

mutual

def prettyChars (level : Nat) : Json → List Char
  | array [] => ['[', ']']
  | array (item :: rest) =>
      '[' :: lineBreak (level + 1) ++ prettyChars (level + 1) item ++
        prettyItems (level + 1) rest ++ lineBreak level ++ [']']
  | object [] => ['\x7b', '\x7d']
  | object ((name, value) :: rest) =>
      '\x7b' :: lineBreak (level + 1) ++ writeString name ++ ':' :: ' ' ::
        prettyChars (level + 1) value ++ prettyMembers (level + 1) rest ++
        lineBreak level ++ ['\x7d']
  | null => chars null
  | bool value => chars (bool value)
  | int value => chars (int value)
  | float value => chars (float value)
  | string value => chars (string value)

def prettyItems (level : Nat) : List Json → List Char
  | [] => []
  | item :: rest => ',' :: lineBreak level ++ prettyChars level item ++ prettyItems level rest

def prettyMembers (level : Nat) : List (String × Json) → List Char
  | [] => []
  | (name, value) :: rest =>
      ',' :: lineBreak level ++ writeString name ++ ':' :: ' ' :: prettyChars level value ++
        prettyMembers level rest

end

def pretty (tree : Json) : String := String.ofList (tree.prettyChars 0)

end MetricLayer.Json
