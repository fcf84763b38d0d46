/-!
# Control sequences

A terminal takes an escape character and what follows it as a command, and control characters as
commands of their own. `plain` leaves out of a text everything that a terminal would not show.
-/

namespace MetricLayer.Text

/-- Where in a command a terminal is. Outside of commands it shows what it gets. -/
inductive TerminalState where
  | showing
  | escape
  | escapeIntermediate
  | control
  | controlParameter
  | controlIntermediate
  | controlIgnored
  | device
  | deviceParameter
  | deviceIntermediate
  | deviceText
  | operating
deriving DecidableEq, Repr

namespace TerminalState

/-- Whether white space ends a command and is shown. -/
def breaksOff : TerminalState → Bool
  | device | deviceParameter | deviceIntermediate | deviceText | operating => false
  | _ => true

/-- The state after an ASCII character that is not shown. -/
def afterAscii (state : TerminalState) (code : Nat) : TerminalState :=
  if code = 0x1B then escape
  else if code = 0x18 ∨ code = 0x1A then showing
  else if state = operating then if code = 7 then showing else operating
  else if code < 0x20 ∨ code = 0x7F then state
  else match state with
    | showing => showing
    | escape =>
        if code < 0x30 then escapeIntermediate
        else if code = 0x5B then control
        else if code = 0x5D then operating
        else if code = 0x50 then device
        else if code = 0x58 ∨ code = 0x5E ∨ code = 0x5F then deviceText
        else showing
    | escapeIntermediate => if code < 0x30 then escapeIntermediate else showing
    | control =>
        if code < 0x30 then controlIntermediate
        else if code < 0x40 then controlParameter
        else showing
    | controlParameter =>
        if code < 0x30 then controlIntermediate
        else if code < 0x3C then controlParameter
        else if code < 0x40 then controlIgnored
        else showing
    | controlIntermediate =>
        if code < 0x30 then controlIntermediate
        else if code < 0x40 then controlIgnored
        else showing
    | controlIgnored => if code < 0x40 then controlIgnored else showing
    | device =>
        if code < 0x30 then deviceIntermediate
        else if code < 0x40 then deviceParameter
        else deviceText
    | deviceParameter =>
        if code < 0x30 then deviceIntermediate
        else if code < 0x3C then deviceParameter
        else deviceText
    | deviceIntermediate => if code < 0x30 then deviceIntermediate else deviceText
    | deviceText => deviceText
    | operating => operating

/-- Whether one of the bytes after the first that encode a code point is the string terminator. -/
def encodesTerminator (code : Nat) : Bool :=
  code % 64 = 28 || (decide (0x800 ≤ code) && code / 64 % 64 = 28) ||
    (decide (0x10000 ≤ code) && code / 4096 % 64 = 28)

/-- The state after a character that is not shown. Beyond ASCII only a string terminator, even as a
part of a character, does anything: it ends the text of a device command. -/
def after (state : TerminalState) (c : Char) : TerminalState :=
  if c.toNat < 0x80 then state.afterAscii c.toNat
  else if state = deviceText ∧ encodesTerminator c.toNat then showing
  else state

def shows (state : TerminalState) (c : Char) : Bool :=
  if c = '\n' ∨ c = '\t' ∨ c = '\r' ∨ c = '\x0c' then state.breaksOff
  else state = showing && decide (0x20 ≤ c.toNat) && c.toNat ≠ 0x7F

end TerminalState

/-- The characters that a terminal shows. -/
def shownChars : TerminalState → List Char → List Char
  | _, [] => []
  | state, c :: rest =>
      if state.shows c then c :: shownChars .showing rest else shownChars (state.after c) rest

def plain (text : String) : String := String.ofList (shownChars .showing text.toList)

end MetricLayer.Text
