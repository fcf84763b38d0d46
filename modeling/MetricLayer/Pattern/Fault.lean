namespace MetricLayer

/-- A part of a pattern, by the numbers of characters that are left where it starts and where it
ends. -/
structure Span where
  start : Nat
  stop : Nat
deriving DecidableEq, Repr

inductive PatternFault where
  | classEscape
  | classOrder
  | classBoundary
  | classUnclosed
  | decimalTooLarge
  | hexEmpty
  | hexNoCharacter
  | hexDigit
  | escapeIncomplete
  | escapeUnknown
  | flagsEndWithNegation
  | flagRepeated
  | negationRepeated
  | flagMissing
  | flagUnknown
  | nameRepeated
  | nameEmpty
  | nameCharacter
  | nameUnclosed
  | groupUnclosed
  | groupUnopened
  | countOrder
  | countMissing
  | countUnclosed
  | operandMissing
  | boundaryUnclosed
  | boundaryUnknown
  | boundaryIncomplete
  | propertySyntax
  | backReference
  | lookAround
  | propertyUnknown
  | anyByte
deriving DecidableEq, Repr

namespace PatternFault

def message : PatternFault → String
  | classEscape => "invalid escape sequence found in character class"
  | classOrder => "invalid character class range, the start must be <= the end"
  | classBoundary => "invalid range boundary, must be a literal"
  | classUnclosed => "unclosed character class"
  | decimalTooLarge => "decimal literal invalid"
  | hexEmpty => "hexadecimal literal empty"
  | hexNoCharacter => "hexadecimal literal is not a Unicode scalar value"
  | hexDigit => "invalid hexadecimal digit"
  | escapeIncomplete => "incomplete escape sequence, reached end of pattern prematurely"
  | escapeUnknown => "unrecognized escape sequence"
  | flagsEndWithNegation => "dangling flag negation operator"
  | flagRepeated => "duplicate flag"
  | negationRepeated => "flag negation operator repeated"
  | flagMissing => "expected flag but got end of regex"
  | flagUnknown => "unrecognized flag"
  | nameRepeated => "duplicate capture group name"
  | nameEmpty => "empty capture group name"
  | nameCharacter => "invalid capture group character"
  | nameUnclosed => "unclosed capture group name"
  | groupUnclosed => "unclosed group"
  | groupUnopened => "unopened group"
  | countOrder => "invalid repetition count range, the start must be <= the end"
  | countMissing => "repetition quantifier expects a valid decimal"
  | countUnclosed => "unclosed counted repetition"
  | operandMissing => "repetition operator missing expression"
  | boundaryUnclosed =>
      "special word boundary assertion is either unclosed or contains an invalid character"
  | boundaryUnknown =>
      "unrecognized special word boundary assertion, valid choices are: start, end, " ++
        "start-half or end-half"
  | boundaryIncomplete =>
      "found either the beginning of a special word boundary or a bounded repetition on a \\b " ++
        "with an opening brace, but no closing brace"
  | propertySyntax => "invalid Unicode character class"
  | backReference => "backreferences are not supported"
  | lookAround => "look-around, including look-ahead and look-behind, is not supported"
  | propertyUnknown => "Unicode property not found"
  | anyByte => "pattern can match invalid UTF-8"

/-- Marks under a line, from a column on. Every span has at least one mark. -/
def underline (length : Nat) : Nat → List Span → List Char
  | _, [] => []
  | column, span :: rest =>
      let gap := length - span.start - column
      let width := max 1 (span.start - span.stop)
      List.replicate gap ' ' ++ List.replicate width '^' ++
        underline length (column + gap + width) rest

/-- The spans are in the order in which they start. -/
def report (fault : PatternFault) (pattern : String) (spans : List Span) : String :=
  "regex parse error:\n    " ++ pattern ++ "\n    " ++
    String.ofList (underline pattern.length 0 spans) ++ "\nerror: " ++ fault.message

end PatternFault

end MetricLayer
