import TapeMachine.Command.ValuePattern.Modes

/-!
# Escapes in a value pattern

What stands after a backslash. Braces never reach a pattern closed, so there are no escapes with
braces; classes by Unicode category are unknown.
-/

namespace TapeMachine.ValuePattern

/-- What an escape stands for. -/
inductive Escape where
  /-- A character, and whether it was written as an octet of two digits. -/
  | literal (c : Char) (octet : Bool)
  /-- Digits, white space or word characters, or their complement. -/
  | letterClass (negated : Bool)
  /-- An end of the text. -/
  | textEnd
  | wordEdge
  deriving DecidableEq, Repr

namespace Escape

/-- The value of a hexadecimal digit. -/
def hexDigit? (c : Char) : Option Nat :=
  if c.isDigit then some (c.toNat - 48)
  else if 'a' ≤ c ∧ c ≤ 'f' then some (c.toNat - 87)
  else if 'A' ≤ c ∧ c ≤ 'F' then some (c.toNat - 55)
  else none

/-- Read digits after those with the value `code`. -/
def readDigits (modes : Modes) : (digits code : Nat) → List Char → Option (Nat × List Char)
  | 0, code, text => some (code, text)
  | _ + 1, _, [] => none
  | digits + 1, code, c :: rest =>
    (hexDigit? c).bind fun value => readDigits modes digits (code * 16 + value) (modes.skip rest)

/-- Read a character by its code point of `digits` digits. -/
def readCode (modes : Modes) (digits : Nat) (text : List Char) : Option (Escape × List Char) := do
  let (code, rest) ← readDigits modes digits 0 (modes.skip text)
  if code.isValidChar then some (.literal (Char.ofNat code) (digits == 2), rest) else none

/-- The character of a one-letter escape. -/
def letter? (c : Char) : Option Char :=
  if c = 'a' then some '\x07'
  else if c = 'f' then some '\x0c'
  else if c = 't' then some '\t'
  else if c = 'n' then some '\n'
  else if c = 'r' then some '\r'
  else if c = 'v' then some '\x0b'
  else none

/-- Whether a character is ASCII and no letter, no digit and no angle bracket, so that an escape
of it is the character itself. -/
def isPlain (c : Char) : Bool :=
  c.toNat < 0x80 && !c.isAlphanum && c != '<' && c != '>'

/-- Read an escape after its backslash. -/
def read (modes : Modes) : List Char → Option (Escape × List Char)
  | [] => none
  | c :: rest =>
    if c = 'x' then readCode modes 2 rest
    else if c = 'u' then readCode modes 4 rest
    else if c = 'U' then readCode modes 8 rest
    else if "dsw".toList.contains c then some (.letterClass false, rest)
    else if "DSW".toList.contains c then some (.letterClass true, rest)
    else if isPlain c then some (.literal c false, rest)
    else if c = 'A' ∨ c = 'z' then some (.textEnd, rest)
    else if "bB<>".toList.contains c then some (.wordEdge, rest)
    else (letter? c).map fun c => (.literal c false, rest)

end Escape

end TapeMachine.ValuePattern
