/-!
# Positions in a text

A position is a line and a column, both counted from one. A line feed ends a line; a carriage
return is an ordinary character, so one that stands before a line feed is the last character of
its line.
-/

namespace TapeMachine.Text

/-- A line and a column. -/
structure Position where
  line : Nat
  column : Nat
  deriving DecidableEq, Repr

/-- The position after one more character. -/
def Position.after (position : Position) (c : Char) : Position :=
  if c = '\n' then { line := position.line + 1, column := 1 }
  else { position with column := position.column + 1 }

/-- The position of the character with this number. -/
def positionAt (text : List Char) (offset : Nat) : Position :=
  (text.take offset).foldl Position.after { line := 1, column := 1 }

end TapeMachine.Text
