import MetricLayer.Pattern
import MetricLayer.Pattern.CharSet
import MetricLayer.Pattern.Fault

/-!
# Reading patterns

`Pattern.read` reads a regular expression. What has no effect on whether a pattern matches, such as
the numbers of groups and the greed of repetitions, is read and forgotten. The first fault from the
left counts; what is only wrong about the meaning of a well-formed pattern counts after that.
-/

namespace MetricLayer

structure PatternFlags where
  foldsCase : Bool
  multiLine : Bool
  dotTakesAll : Bool
  carriageReturns : Bool
  unicode : Bool
  spaced : Bool
deriving DecidableEq, Repr

namespace PatternFlags

def standard : PatternFlags := ⟨false, false, false, false, true, false⟩

def isLetter (c : Char) : Bool := ['i', 'm', 's', 'U', 'u', 'R', 'x'].contains c

def set (flags : PatternFlags) (letter : Char) (value : Bool) : PatternFlags :=
  match letter with
  | 'i' => { flags with foldsCase := value }
  | 'm' => { flags with multiLine := value }
  | 's' => { flags with dotTakesAll := value }
  | 'R' => { flags with carriageReturns := value }
  | 'u' => { flags with unicode := value }
  | 'x' => { flags with spaced := value }
  | _ => flags

/-- The letters in front of a minus are set and those after it are not. -/
def apply (flags : PatternFlags) (letters : List Char) : PatternFlags :=
  (letters.foldl (fun (flags, value) letter =>
    if letter = '-' then (flags, false) else (set flags letter value, value)) (flags, true)).1

def fold (flags : PatternFlags) (set : CharSet) : CharSet :=
  if flags.foldsCase then set.foldingCase else set

end PatternFlags

namespace Pattern

/-- How far a pattern has been read. A fault of its meaning waits for the end. -/
structure Progress where
  rest : List Char
  flags : PatternFlags
  names : List (List Char × Span)
  waiting : Option (PatternFault × List Span)

abbrev Reading := StateT Progress (Except (PatternFault × List Span))

namespace Reading

def fail {α : Type} (fault : PatternFault) (span : Span) : Reading α := throw (fault, [span])

def left : Reading Nat := return (← get).rest.length

def peek? : Reading (Option Char) := return (← get).rest.head?

def flags : Reading PatternFlags := return (← get).flags

def setFlags (flags : PatternFlags) : Reading Unit :=
  modify fun progress => { progress with flags }

def setRest (rest : List Char) : Reading Unit := modify fun progress => { progress with rest }

def drop (count : Nat) : Reading Unit :=
  modify fun progress => { progress with rest := progress.rest.drop count }

/-- The span from a place to here. -/
def since (start : Nat) : Reading Span := return ⟨start, ← left⟩

def point : Reading Span := do since (← left)

/-- The span of the next character. -/
def nextSpan : Reading Span := do
  let start ← left
  return ⟨start, start - 1⟩

/-- Of a fault of the meaning only the first one is kept. -/
def warn (fault : PatternFault) (span : Span) : Reading Unit :=
  modify fun progress => { progress with waiting := progress.waiting.or (some (fault, [span])) }

/-- White space and comments, which reach to the end of their line. The number bounds them. -/
def dropSpace : Nat → List Char → List Char
  | 0, text => text
  | _ + 1, [] => []
  | bound + 1, c :: rest =>
      if Text.isBlank c then dropSpace bound rest
      else if c = '#' then dropSpace bound ((rest.dropWhile (· ≠ '\n')).drop 1)
      else c :: rest

/-- In a spaced pattern, white space and comments do not count. -/
def skip : Reading Unit := do
  if (← flags).spaced then
    modify fun progress =>
      { progress with rest := dropSpace progress.rest.length progress.rest }

/-- Goes over one character; whether anything is left. -/
def bump : Reading Bool := do
  drop 1
  skip
  return (← get).rest ≠ []

/-- The characters of the set that come next. The number bounds them. -/
def scan (set : CharSet) : Nat → Reading (List Char)
  | 0 => return []
  | bound + 1 => do
      match (← peek?).filter set with
      | none => return []
      | some c =>
          let _ ← bump
          return c :: (← scan set bound)

def scanAll (set : CharSet) : Reading (List Char) := do scan set (← left)

end Reading

open Reading

inductive Atom where
  | literal (c : Char)
  | set (accepts : CharSet)
  | place (holds : Option Char → Option Char → Bool)

def isMeta (c : Char) : Bool := "\\.+*?()|[]\x7b\x7d^$#&-~".toList.contains c

def isHexDigit (c : Char) : Bool := c.isDigit || CharSet.range 'a' 'f' c || CharSet.range 'A' 'F' c

def hexDigitValue (c : Char) : Nat :=
  if c.isDigit then c.toNat - 48 else c.toLower.toNat - 87

def charOfHex (digits : List Char) (span : Span) : Reading Atom :=
  let code := digits.foldl (fun value c => value * 16 + hexDigitValue c) 0
  if code < 0xD800 ∨ (0xE000 ≤ code ∧ code < 0x110000) then return .literal (Char.ofNat code)
  else fail .hexNoCharacter span

def fixedHex : Nat → Reading (List Char)
  | 0 => return []
  | count + 1 => do
      match (← peek?).filter isHexDigit with
      | none => fail .hexDigit (← nextSpan)
      | some c =>
          if count = 0 then return [c]
          else
            if !(← bump) then fail .escapeIncomplete (← point)
            return c :: (← fixedHex count)

def bracedHex : Reading Atom := do
  let brace ← left
  drop 1
  let start ← left
  skip
  let digits ← scanAll isHexDigit
  match ← peek? with
  | none => fail .escapeIncomplete (← since brace)
  | some '\x7d' =>
      let stop ← left
      let _ ← bump
      if digits.isEmpty then fail .hexEmpty (← since brace)
      else charOfHex digits ⟨start, stop⟩
  | some _ => fail .hexDigit (← nextSpan)

/-- What follows `\x`, `\u` or `\U`. -/
def hexEscape (letter : Char) : Reading Atom := do
  if !(← bump) then fail .escapeIncomplete (← point)
  if (← peek?) = some '\x7b' then bracedHex
  else
    let start ← left
    let digits ← fixedHex (if letter = 'x' then 2 else if letter = 'u' then 4 else 8)
    let _ ← bump
    charOfHex digits (← since start)

def propertyName : Reading String := do
  if (← peek?) = some '\x7b' then
    let _ ← bump
    let name ← scanAll (fun c => c ≠ '\x7d')
    if (← peek?).isNone then fail .escapeIncomplete (← point)
    drop 1
    return String.ofList name
  else
    match ← peek? with
    | some '\\' => fail .propertySyntax (← nextSpan)
    | some c =>
        let _ ← bump
        return String.singleton c
    | none => fail .escapeIncomplete (← point)

/-- What follows `\p` or `\P`. -/
def propertyEscape (start : Nat) (negated : Bool) : Reading Atom := do
  if !(← bump) then fail .escapeIncomplete (← point)
  match CharSet.ofProperty? (← propertyName) with
  | some set => return .set (((← flags).fold set).negateIf negated)
  | none =>
      warn .propertyUnknown (← since start)
      return .set CharSet.none

def isWordIn (flags : PatternFlags) : CharSet := CharSet.ofClassLetter flags.unicode 'w'

def wordPlace (flags : PatternFlags) (holds : Bool → Bool → Bool) : Atom :=
  .place fun before after => holds (before.any (isWordIn flags)) (after.any (isWordIn flags))

def boundaryPlace? (flags : PatternFlags) : String → Option Atom
  | "start" => some (wordPlace flags fun before after => !before && after)
  | "end" => some (wordPlace flags fun before after => before && !after)
  | "start-half" => some (wordPlace flags fun before _ => !before)
  | "end-half" => some (wordPlace flags fun _ after => !after)
  | _ => none

/-- What follows `\b`: a name in braces, unless that is a repetition. -/
def boundary (start : Nat) : Reading Atom := do
  let flags ← flags
  let plain := wordPlace flags fun before after => before != after
  let text := (← get).rest
  if text.head? ≠ some '\x7b' then return plain
  let brace := text.length
  if !(← bump) then fail .boundaryIncomplete (← since start)
  let inner ← left
  let name ← scanAll (fun c => c.isAlpha || c = '-')
  if name.isEmpty then
    setRest text
    return plain
  if (← peek?) ≠ some '\x7d' then fail .boundaryUnclosed (← since brace)
  let stop ← left
  drop 1
  match boundaryPlace? flags (String.ofList name) with
  | some atom => return atom
  | none => fail .boundaryUnknown ⟨inner, stop⟩

def classEscape (start : Nat) (letter : Char) : Reading Atom := do
  drop 1
  let flags ← flags
  let negated := letter.isUpper
  if negated && !flags.unicode then warn .anyByte (← since start)
  return .set ((CharSet.ofClassLetter flags.unicode letter.toLower).negateIf negated)

/-- The escapes of one character that stand for another one. -/
def escapedChar? : Char → Option Char
  | 'a' => some '\x07'
  | 'f' => some '\x0c'
  | 't' => some '\t'
  | 'n' => some '\n'
  | 'r' => some '\r'
  | 'v' => some '\x0b'
  | c =>
      if isMeta c || (CharSet.isAscii c && !c.isAlphanum && c ≠ '<' && c ≠ '>') then some c
      else none

def simpleEscape (start : Nat) (c : Char) : Reading Atom := do
  drop 1
  let flags ← flags
  match c with
  | 'A' => return .place fun before _ => before.isNone
  | 'z' => return .place fun _ after => after.isNone
  | 'b' => boundary start
  | 'B' => return wordPlace flags fun before after => before == after
  | '<' => return wordPlace flags fun before after => !before && after
  | '>' => return wordPlace flags fun before after => before && !after
  | _ =>
      match escapedChar? c with
      | some c => return .literal c
      | none => fail .escapeUnknown (← since start)

def escape : Reading Atom := do
  let start ← left
  drop 1
  match ← peek? with
  | none => fail .escapeIncomplete (← since start)
  | some c =>
      if c.isDigit then fail .backReference ⟨start, (← left) - 1⟩
      else if c = 'x' ∨ c = 'u' ∨ c = 'U' then hexEscape c
      else if c = 'p' ∨ c = 'P' then propertyEscape start (c = 'P')
      else if ['d', 's', 'w', 'D', 'S', 'W'].contains c then classEscape start c
      else simpleEscape start c

def classItem : Reading (Atom × Span) := do
  let start ← left
  match ← peek? with
  | some '\\' =>
      let atom ← escape
      return (atom, ← since start)
  | some c =>
      drop 1
      return (.literal c, ← since start)
  | none => return (.set CharSet.none, ← point)

def itemSet (item : Atom × Span) : Reading CharSet := do
  match item.1 with
  | .literal c => return (← flags).fold (CharSet.single c)
  | .set set => return set
  | .place _ => fail .classEscape item.2

def itemChar (item : Atom × Span) : Reading Char :=
  match item.1 with
  | .literal c => return c
  | _ => fail .classBoundary item.2

/-- What comes after the next character, white space in spaced patterns left out. -/
def peekNext? : Reading (Option Char) := do
  let progress ← get
  let rest := progress.rest.drop 1
  let rest := if progress.flags.spaced then dropSpace rest.length rest else rest
  return rest.head?

/-- An item, or a range between two. A minus in front of the end or of another minus makes no
range. -/
def classRange (opening : Span) : Reading CharSet := do
  let first ← classItem
  skip
  match ← peek? with
  | none => fail .classUnclosed opening
  | some c =>
      let next ← peekNext?
      if c ≠ '-' ∨ next = some ']' ∨ next = some '-' then itemSet first
      else
        if !(← bump) then fail .classUnclosed opening
        let last ← classItem
        let low ← itemChar first
        let high ← itemChar last
        if high < low then fail .classOrder ⟨first.2.start, last.2.stop⟩
        return (← flags).fold (CharSet.range low high)

/-- A named class in brackets of its own, if that is what comes next. -/
def namedClass? : Reading (Option CharSet) := do
  match (← get).rest with
  | '[' :: ':' :: rest =>
      let (negated, rest) := match rest with
        | '^' :: rest => (true, rest)
        | _ => (false, rest)
      let name := rest.takeWhile (· ≠ ':')
      match rest.dropWhile (· ≠ ':'), CharSet.ofAsciiName? (String.ofList name) with
      | ':' :: ']' :: rest, some set =>
          setRest rest
          return some (((← flags).fold set).negateIf negated)
      | _, _ => return none
  | _ => return none

/-- Minus signs at the start of a class stand for themselves. The number bounds them. -/
def leadingMinuses (opening : Span) : Nat → CharSet → Reading CharSet
  | 0, set => return set
  | bound + 1, set => do
      if (← peek?) ≠ some '-' then return set
      if !(← bump) then fail .classUnclosed opening
      leadingMinuses opening bound (set.union (CharSet.single '-'))

/-- The start of a class: its span, whether the class is negated, and what stands at the start for
itself. -/
def openClass : Reading (Span × Bool × CharSet) := do
  let start ← left
  if !(← bump) then fail .classUnclosed (← since start)
  let negated := (← peek?) = some '^'
  if negated then
    if !(← bump) then fail .classUnclosed (← since start)
  let first ← peek?
  let set ← leadingMinuses ⟨start, start⟩ (← left) CharSet.none
  if first = some ']' then
    if !(← bump) then fail .classUnclosed (← since start)
    return (← since start, negated, CharSet.single ']')
  return (← since start, negated, set)

def operator? (first second : Option Char) : Option (CharSet → CharSet → CharSet) :=
  match first, second with
  | some '&', some '&' => some CharSet.intersection
  | some '-', some '-' => some CharSet.difference
  | some '~', some '~' => some CharSet.symmetricDifference
  | _, _ => none

/-- The rest of a class. `combine` says what becomes of the items since the last operator. The
number bounds the items. -/
def classRest : Nat → Span × Bool → (CharSet → CharSet) → CharSet → Reading CharSet
  | 0, _, _, _ => return CharSet.none
  | bound + 1, (opening, negated), combine, set => do
      skip
      let text := (← get).rest
      match text with
      | [] => fail .classUnclosed opening
      | ']' :: _ =>
          drop 1
          if negated && !(← flags).unicode then warn .anyByte (← since opening.start)
          return (combine set).negateIf negated
      | '[' :: _ =>
          match ← namedClass? with
          | some named => classRest bound (opening, negated) combine (set.union named)
          | none =>
              let (inner, innerNegated, start) ← openClass
              let nested ← classRest bound (inner, innerNegated) id start
              classRest bound (opening, negated) combine (set.union nested)
      | c :: rest =>
          match operator? (some c) rest.head? with
          | some operator =>
              drop 2
              classRest bound (opening, negated) (operator (combine set)) CharSet.none
          | none =>
              let item ← classRange opening
              classRest bound (opening, negated) combine (set.union item)

def classSet : Reading CharSet := do
  let (opening, negated, start) ← openClass
  classRest ((← left) + 1) (opening, negated) id start

def uint32Max : Nat := 4294967295

/-- A decimal number with white space around it, or nothing if there are no digits. -/
def count? : Reading (Option Nat × Span) := do
  modify fun progress => { progress with rest := progress.rest.dropWhile Text.isBlank }
  let start ← left
  let digits ← scanAll Char.isDigit
  let span ← since start
  modify fun progress => { progress with rest := progress.rest.dropWhile Text.isBlank }
  if digits.isEmpty then return (none, span)
  return (some (digits.foldl (fun value c => value * 10 + (c.toNat - 48)) 0), span)

def given (count : Option Nat × Span) : Reading Nat :=
  match count.1 with
  | some value => if uint32Max < value then fail .decimalTooLarge count.2 else return value
  | none => fail .countMissing count.2

/-- A question mark after a repetition only says which match is wanted. -/
def skipGreed : Reading Unit := do
  if (← peek?) = some '?' then drop 1

/-- A repetition in braces: how often at least, and at most. -/
def counts : Reading (Nat × Option Nat) := do
  let start ← left
  if !(← bump) then fail .countUnclosed (← since start)
  let least ← count?
  match ← peek? with
  | none => fail .countUnclosed (← since start)
  | some ',' =>
      if !(← bump) then fail .countUnclosed (← since start)
      if (← peek?) = some '\x7d' then
        let least ← given least
        let _ ← bump
        skipGreed
        return (least, none)
      let least ← given least
      let most ← given (← count?)
      if (← peek?) ≠ some '\x7d' then fail .countUnclosed (← since start)
      let _ ← bump
      skipGreed
      if most < least then fail .countOrder (← since start)
      return (least, some most)
  | some c =>
      let least ← given least
      if c ≠ '\x7d' then fail .countUnclosed (← since start)
      let _ ← bump
      skipGreed
      return (least, some least)

/-- The letters of flags up to a colon or a bracket, with their spans. The number bounds them. -/
def flagLetters : Nat → List (Char × Span) → Reading (List (Char × Span))
  | 0, letters => return letters
  | bound + 1, letters => do
      match ← peek? with
      | some c =>
          if c = ':' ∨ c = ')' then
            match letters.getLast? with
            | some ('-', span) => fail .flagsEndWithNegation span
            | _ => return letters
          else
            let span ← nextSpan
            if c ≠ '-' ∧ !PatternFlags.isLetter c then fail .flagUnknown span
            match letters.lookup c with
            | some earlier =>
                throw (if c = '-' then .negationRepeated else .flagRepeated, [earlier, span])
            | none =>
                drop 1
                flagLetters bound (letters ++ [(c, span)])
      | none => fail .flagMissing (← point)

def isNameChar (first : Bool) (c : Char) : Bool :=
  let isLetter := Text.isAlphanumeric c && !CharSet.isNumber c
  if first then c = '_' || isLetter
  else c = '_' || c = '.' || c = '[' || c = ']' || Text.isAlphanumeric c

def groupName : Reading Unit := do
  let start ← left
  let text := (← get).rest
  let name := text.takeWhile (· ≠ '>')
  let good := match name with
    | first :: others =>
        if isNameChar true first then first :: others.takeWhile (isNameChar false) else []
    | [] => []
  if good.length < name.length then
    drop good.length
    fail .nameCharacter (← nextSpan)
  drop name.length
  let span ← since start
  if (← peek?).isNone then fail .nameUnclosed (← point)
  drop 1
  if name.isEmpty then fail .nameEmpty span
  match (← get).names.lookup name with
  | some earlier => throw (.nameRepeated, [earlier, span])
  | none => modify fun progress => { progress with names := (name, span) :: progress.names }

def startsWith (start : String) : Reading Bool :=
  return start.toList.isPrefixOf (← get).rest

def lookArounds : List String := ["?=", "?!", "?<=", "?<!"]

/-- The flags of a group, or those from here on. -/
def flagGroup (opening mark : Span) : Reading Bool := do
  drop 1
  if (← peek?).isNone then fail .groupUnclosed opening
  let letters ← flagLetters ((← left) + 1) []
  let isGroup := (← peek?) = some ':'
  drop 1
  if !isGroup && letters.isEmpty then fail .operandMissing mark
  setFlags ((← flags).apply (letters.map (·.1)))
  return isGroup

/-- The start of a group; whether there is a group, and not only flags. -/
def openGroup (opening : Span) : Reading Bool := do
  drop 1
  skip
  let mark ← point
  let text := (← get).rest
  match lookArounds.find? fun start => start.toList.isPrefixOf text with
  | some start =>
      drop start.length
      fail .lookAround (← since opening.start)
  | none =>
      if ← startsWith "?P<" then
        drop 3
        groupName
        return true
      else if ← startsWith "?<" then
        drop 2
        groupName
        return true
      else if ← startsWith "?" then flagGroup opening mark
      else return true

def lineStart (flags : PatternFlags) (before after : Option Char) : Bool :=
  before.isNone || (flags.multiLine && (before = some '\n' ||
    (flags.carriageReturns && before = some '\r' && after ≠ some '\n')))

def lineEnd (flags : PatternFlags) (before after : Option Char) : Bool :=
  after.isNone || (flags.multiLine &&
    if flags.carriageReturns then
      after = some '\r' || (after = some '\n' && before ≠ some '\r')
    else after = some '\n')

def anyChar (flags : PatternFlags) : CharSet := fun c =>
  flags.dotTakesAll || (c ≠ '\n' && !(flags.carriageReturns && c = '\r'))

def ofAtom (flags : PatternFlags) : Atom → Pattern
  | .literal c => .character (flags.fold (CharSet.single c))
  | .set accepts => .character accepts
  | .place holds => .place holds

def single (c : Char) : Reading Pattern := do
  let flags ← flags
  if c = '\\' then return ofAtom flags (← escape)
  let start ← left
  drop 1
  match c with
  | '.' =>
      if !flags.unicode then warn .anyByte (← since start)
      return .character (anyChar flags)
  | '^' => return .place (lineStart flags)
  | '$' => return .place (lineEnd flags)
  | _ => return ofAtom flags (.literal c)

/-- The operand of a repetition is the last item; flags are none. -/
def operand (items : List (Option Pattern)) : Reading (Pattern × List (Option Pattern)) := do
  match items with
  | some pattern :: others => return (pattern, others)
  | _ => fail .operandMissing (← point)

def simpleCounts (c : Char) : Nat × Option Nat :=
  if c = '?' then (0, some 1) else if c = '*' then (0, none) else (1, none)

def repetition (c : Char) : Reading (Nat × Option Nat) := do
  if c = '\x7b' then counts
  else
    drop 1
    skipGreed
    return simpleCounts c

/-- The items in order; the last one comes first. -/
def inOrder (items : List (Option Pattern)) : Pattern :=
  (items.filterMap id).foldl (fun rest item => .sequence item rest) .empty

def orElse (choices : Option Pattern) (items : List (Option Pattern)) : Pattern :=
  match choices with
  | none => inOrder items
  | some choices => .choice choices (inOrder items)

/-- Choices up to the end or to a closing bracket. The number bounds the items. -/
def choices : Nat → Option Pattern → List (Option Pattern) → Reading Pattern
  | 0, sofar, items => return orElse sofar items
  | bound + 1, sofar, items => do
      skip
      match ← peek? with
      | none | some ')' => return orElse sofar items
      | some '|' =>
          drop 1
          choices bound (some (orElse sofar items)) []
      | some '(' =>
          let opening ← nextSpan
          let outer ← flags
          if ← openGroup opening then
            let inner ← choices bound none []
            if (← peek?).isNone then fail .groupUnclosed opening
            drop 1
            setFlags outer
            choices bound sofar (some inner :: items)
          else choices bound sofar (none :: items)
      | some '[' =>
          let set ← classSet
          choices bound sofar (some (.character set) :: items)
      | some c =>
          if c = '?' ∨ c = '*' ∨ c = '+' ∨ c = '\x7b' then
            let (pattern, others) ← operand items
            let (least, most) ← repetition c
            choices bound sofar (some (.repeated pattern least most) :: others)
          else
            let item ← single c
            choices bound sofar (some item :: items)

def whole : Reading Pattern := do
  let pattern ← choices ((← left) + 1) none []
  if (← peek?).isSome then fail .groupUnopened (← nextSpan)
  match (← get).waiting with
  | some fault => throw fault
  | none => return pattern

def read (text : String) : Except String Pattern :=
  match whole.run ⟨text.toList, .standard, [], none⟩ with
  | .ok (pattern, _) => .ok pattern
  | .error (fault, spans) => .error (fault.report text spans)

end Pattern

end MetricLayer
