/-!
# Patterns

A pattern is a regular expression. To find out where it can match, the places of a text before which
a match may stand are marked, and `marksAfter` moves the marks to the places where a match may end.
A text of `n` characters has `n + 1` places.
-/

namespace MetricLayer

inductive Pattern where
  | empty
  | character (accepts : Char → Bool)
  | place (holds : Option Char → Option Char → Bool)
  | sequence (first second : Pattern)
  | choice (first second : Pattern)
  | repeated (pattern : Pattern) (least : Nat) (most : Option Nat)
deriving Inhabited

namespace Pattern

/-- The characters on both sides of every place. -/
def neighbours (text : List Char) : List (Option Char × Option Char) :=
  List.zip (none :: text.map some) (text.map some ++ [none])

def either (first second : List Bool) : List Bool := List.zipWith (· || ·) first second

/-- Takes so many steps. Marks that a step leaves as they are will not change any more. -/
def advance (step : List Bool → List Bool) : Nat → List Bool → List Bool
  | 0, marks => marks
  | count + 1, marks =>
      let next := step marks
      if next = marks then marks else advance step count next

/-- Takes up to so many steps and keeps all marks on the way. -/
def spread (step : List Bool → List Bool) : Nat → List Bool → List Bool
  | 0, marks => marks
  | count + 1, marks =>
      let next := either marks (step marks)
      if next = marks then marks else spread step count next

/-- More repetitions than the text has places do not lead any further. -/
def marksAfter (text : List Char) : Pattern → List Bool → List Bool
  | empty, marks => marks
  | character accepts, marks =>
      false :: List.zipWith (fun marked c => marked && accepts c) marks text
  | place holds, marks =>
      List.zipWith (fun marked (before, after) => marked && holds before after) marks
        (neighbours text)
  | sequence first second, marks => marksAfter text second (marksAfter text first marks)
  | choice first second, marks =>
      either (marksAfter text first marks) (marksAfter text second marks)
  | repeated pattern least most, marks =>
      let bound := text.length + 1
      let more := most.elim bound fun most => most - least
      spread (marksAfter text pattern) (min more bound)
        (advance (marksAfter text pattern) (min least bound) marks)

def occursIn (pattern : Pattern) (text : String) : Bool :=
  let chars := text.toList
  (marksAfter chars pattern (List.replicate (chars.length + 1) true)).any id

end Pattern

end MetricLayer
