import TapeMachine.Direction
import TapeMachine.Pattern

/-!
# Rules

A rule pairs the pattern by which it is found with the action it performs: one write and one head
movement for each tape, and the state the machine enters.
-/

namespace TapeMachine

/-- What a rule does to the cell under one head. -/
inductive Write where
  /-- Leave the cell as it is. -/
  | keep
  /-- Overwrite the cell. -/
  | put (symbol : Char)
  deriving DecidableEq, Repr, Inhabited

/-- The written symbol of a write, where kept cells are written as `unchanged`. -/
def Write.written (unchanged : Char) : Write → Char
  | .keep => unchanged
  | .put symbol => symbol

/-- The effect of a rule: the writes, then the movements, then the next state. -/
structure Action where
  /-- One write for each tape. -/
  writes : List Write
  /-- One movement for each tape. -/
  moves : List Direction
  /-- The position of the next state in the machine's list of states. -/
  next : Nat
  deriving DecidableEq, Repr, Inhabited

/-- A pattern and the action of the machine where the pattern is selected. -/
structure Rule where
  pattern : Pattern
  action : Action
  deriving DecidableEq, Repr, Inhabited

end TapeMachine
