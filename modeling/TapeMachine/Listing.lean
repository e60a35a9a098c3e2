import TapeMachine.Listing.Grammar
import TapeMachine.Listing.Meaning
import TapeMachine.Text.Position

/-!
# Listings

Reading a listing into a document, with the line and column of the mistake if there is one.
-/

namespace TapeMachine.Listing

/-- Why a listing cannot be read. -/
inductive Error where
  /-- The text does not have the form of a listing. -/
  | unexpected (position : Text.Position)
  /-- The text has the right form but says something wrong. -/
  | mistaken (position : Text.Position) (problem : Problem)
  deriving DecidableEq, Repr

namespace Error

/-- Where a listing cannot be read. -/
def position : Error → Text.Position
  | .unexpected position => position
  | .mistaken position _ => position

/-- The wording of an error: its position and, on a line of its own, what is wrong. -/
def message (error : Error) : String :=
  let place := " --> " ++ error.position.line.repr ++ ":" ++ error.position.column.repr
  match error with
  | .unexpected _ => place
  | .mistaken _ problem => place ++ "\n  = " ++ problem.message

end Error

/-- Why a listing has no document. -/
inductive Refusal where
  /-- The text is wrong at a position. -/
  | located (error : Error)
  /-- The text names no initial state. -/
  | noInitialState
  deriving DecidableEq, Repr

/-- Read a listing into a document. -/
def read (source : String) : Except Refusal Document :=
  let chars := source.toList
  match parse chars with
  | .error offset => .error (.located (.unexpected (Text.positionAt chars offset)))
  | .ok program =>
    match program.toDocument with
    | .error (.wrong offset problem) =>
      .error (.located (.mistaken (Text.positionAt chars offset) problem))
    | .error .noInitialState => .error .noInitialState
    | .ok document => .ok document

end TapeMachine.Listing
