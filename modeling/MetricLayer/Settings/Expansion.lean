import MetricLayer.Text.Alphanumeric

/-!
# Variables in paths

A path may refer to environment variables, as `${name}` or as `$name` with a name of letters, digits
and underscores. The text is cut once from left to right into characters and references, and what
a variable holds is taken as it is.
-/

namespace MetricLayer

abbrev Environment := String → Option String

namespace Expansion

inductive Segment where
  | plain (c : Char)
  | reference (name : String)
deriving DecidableEq, Repr

def isNameChar (c : Char) : Bool := Text.isAlphanumeric c || c = '_'

theorem length_dropWhile_le {α : Type} (p : α → Bool) (items : List α) :
    (items.dropWhile p).length ≤ items.length := by
  induction items with
  | nil => simp
  | cons head rest ih =>
      rw [List.dropWhile_cons]
      split
      · exact Nat.le_succ_of_le ih
      · exact Nat.le_refl _

/-- A closing brace may be missing at the end of the text. A dollar sign that starts no reference
stands for itself. -/
def segments : List Char → List Segment
  | [] => []
  | '$' :: '\x7b' :: rest =>
      .reference (String.ofList (rest.takeWhile (· ≠ '\x7d'))) ::
        segments ((rest.dropWhile (· ≠ '\x7d')).drop 1)
  | c :: rest =>
      if c = '$' ∧ rest.head?.any isNameChar then
        .reference (String.ofList (rest.takeWhile isNameChar)) ::
          segments (rest.dropWhile isNameChar)
      else .plain c :: segments rest
termination_by text => text.length
decreasing_by
  · have := length_dropWhile_le (· ≠ '\x7d') rest
    simp only [List.length_drop, List.length_cons]
    omega
  · have := length_dropWhile_le isNameChar rest
    simp only [List.length_cons]
    omega
  · simp

def Segment.name? : Segment → Option String
  | plain _ => none
  | reference name => some name

/-- The text of a segment, or the variable that is not defined. -/
def Segment.resolve (environment : Environment) : Segment → Except String String
  | plain c => .ok (String.singleton c)
  | reference name =>
      match environment name with
      | some value => .ok value
      | none => .error name

end Expansion

/-- Puts in the values of all variables; the error is the first one from the left that is not
defined. -/
def expandVariables (environment : Environment) (text : String) : Except String String := do
  let texts ← (Expansion.segments text.toList).mapM (·.resolve environment)
  return String.join texts

end MetricLayer
