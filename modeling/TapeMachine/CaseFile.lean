import TapeMachine.Text.Blank
import TapeMachine.Text.Lines

/-!
# Case files

A case file has one case on each line: the contents of the tapes, separated by semicolons, and
optionally an arrow and the expected output. Blank lines and lines that start with a number sign are
ignored.
-/

namespace TapeMachine

/-- The initial contents of the tapes and the expected output, if any. -/
structure Case where
  tapes : List String
  expected : Option String
  deriving DecidableEq, Repr

namespace Case

/-- Split a line at its first arrow; `before` holds the characters already passed, last first. -/
def splitArrow (before : List Char) : List Char → Option (List Char × List Char)
  | '=' :: '>' :: rest => some (before.reverse, rest)
  | c :: rest => splitArrow (c :: before) rest
  | [] => none

/-- Whether a line holds no case. -/
def isIgnored (line : List Char) : Bool :=
  match Text.trimStart line with
  | [] => true
  | c :: _ => c == '#'

/-- Read the contents of the tapes. -/
def readTapes (text : List Char) : List String :=
  (Text.splitOn ';' text).map String.ofList

/-- Read the case of a line. -/
def ofLine (line : List Char) : Case :=
  match splitArrow [] line with
  | some (input, expected) =>
    { tapes := readTapes (Text.trimEnd input)
      expected := some (String.ofList (Text.trim expected)) }
  | none => { tapes := readTapes line, expected := none }

/-- Read all cases of a case file. -/
def readAll (text : String) : List Case :=
  ((Text.lines text.toList).filter (!isIgnored ·)).map ofLine

end Case

end TapeMachine
