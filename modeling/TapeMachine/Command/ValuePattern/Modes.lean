import TapeMachine.Text.Blank

/-!
# Modes of a value pattern

Flags inside a pattern switch modes for what follows them. Three modes decide whether a pattern
can be used: ignoring the case of letters, working on characters rather than octets, and skipping
white space and comments. Patterns know no tables of characters, so letters cannot be compared
without their case as long as characters are meant.
-/

namespace TapeMachine.ValuePattern

/-- The modes that hold at a place of a pattern. -/
structure Modes where
  ignoreCase : Bool := false
  /-- Whether the pattern is about characters rather than octets. -/
  unicode : Bool := true
  /-- Whether white space and comments are skipped. -/
  verbose : Bool := false
  deriving DecidableEq, Repr

namespace Modes

/-- Whether flags are known, not repeated, and not negated in vain. -/
def areFlags (flags : List Char) : Bool :=
  flags.all ("imsUuRx-".toList.contains ·) && decide flags.Nodup && flags.getLast? != some '-'

/-- Switch modes on, and after a hyphen off. -/
def switch (modes : Modes) (enable : Bool) : List Char → Modes
  | [] => modes
  | flag :: flags =>
    if flag = '-' then modes.switch false flags
    else if flag = 'i' then { modes with ignoreCase := enable }.switch enable flags
    else if flag = 'u' then { modes with unicode := enable }.switch enable flags
    else if flag = 'x' then { modes with verbose := enable }.switch enable flags
    else modes.switch enable flags

/-- Skip white space, and comments from a number sign to the end of its line. -/
def skipRemarks : (inComment : Bool) → List Char → List Char
  | _, [] => []
  | true, c :: rest => skipRemarks (c != '\n') rest
  | false, c :: rest =>
    if Text.isBlank c then skipRemarks false rest
    else if c = '#' then skipRemarks true rest
    else c :: rest

/-- The text from its next significant character on. -/
def skip (modes : Modes) (text : List Char) : List Char :=
  if modes.verbose then skipRemarks false text else text

/-- Look ahead to the next significant character. The first number sign is passed over, but not
the comment after it. -/
def lookPast : (passed : Bool) → List Char → Option Char
  | _, [] => none
  | passed, c :: rest =>
    if Text.isBlank c then lookPast passed rest
    else if c = '#' ∧ !passed then lookPast true rest
    else some c

/-- The next character that counts in these modes. -/
def look (modes : Modes) (text : List Char) : Option Char :=
  if modes.verbose then lookPast false text else text.head?

/-- Whether a character may stand for itself. An octet is a character that was written by the two
digits of its code; beyond ASCII it stands for no character. -/
def acceptsLiteral (modes : Modes) (c : Char) (octet : Bool) : Bool :=
  if modes.unicode then !modes.ignoreCase else !octet || c.toNat < 0x80

/-- Whether a character may stand in brackets, where only ASCII can be octets. -/
def acceptsMember (modes : Modes) (c : Char) : Bool :=
  if modes.unicode then !modes.ignoreCase else c.toNat < 0x80

/-- Whether one of the letter classes may be used: only for octets, and not its complement,
which would hold octets that are no characters. -/
def acceptsLetterClass (modes : Modes) (negated : Bool) : Bool :=
  !modes.unicode && !negated

/-- Whether one of the named classes may be used in brackets. -/
def acceptsNamedClass (modes : Modes) (negated : Bool) : Bool :=
  if modes.unicode then !modes.ignoreCase else !negated

/-- Whether brackets may be negated, at the top or inside other brackets. -/
def acceptsNegation (modes : Modes) (nested : Bool) : Bool :=
  modes.unicode && !(modes.ignoreCase && nested)

end Modes

end TapeMachine.ValuePattern
