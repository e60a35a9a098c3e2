/-!
# Head movements

A head moves one cell left, one cell right, or stays. Each movement has two written tokens and one
canonical token.
-/

namespace TapeMachine

/-- One movement of a tape head. -/
inductive Direction where
  | left
  | right
  | stay
  deriving DecidableEq, Repr, Inhabited

namespace Direction

/-- Read a movement token; every movement has a letter and a punctuation spelling. -/
def ofToken? (token : String) : Option Direction :=
  if token = "L" ∨ token = "<" then some .left
  else if token = "R" ∨ token = ">" then some .right
  else if token = "S" ∨ token = "-" then some .stay
  else none

/-- The canonical one-letter token of a movement. -/
def token : Direction → String
  | .left => "L"
  | .right => "R"
  | .stay => "S"

/-- The full name of a movement, as structured output spells it. -/
def name : Direction → String
  | .left => "Left"
  | .right => "Right"
  | .stay => "Stay"

/-- All movements, in the order in which messages list their names. -/
def all : List Direction := [.left, .right, .stay]

/-- The canonical token reads back as the movement it was written for. -/
@[simp]
theorem ofToken?_token (direction : Direction) : ofToken? direction.token = some direction := by
  cases direction <;> rfl

end Direction

end TapeMachine
