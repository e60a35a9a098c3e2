import Mathlib.Data.List.Zip
import Mathlib.Logic.Function.Basic
import TapeMachine.Configuration

/-!
# The ideal machine

The multi-tape machine of the textbooks: every tape has a symbol at every position, the head of a
tape stops at the left end, and nothing is laid out, grown or measured. `Ideal.step` accepts in an
accepting state, then looks for a rule, and rejects where there is none.
-/

namespace TapeMachine.Ideal

/-- A symbol at every position, and the position of the head. -/
structure Tape where
  cells : Nat → Char
  head : Nat

namespace Tape

/-- The content from the left end on, followed by blanks forever. -/
def seeded (content : List Char) (blank : Char) : Tape where
  cells position := content.getD position blank
  head := 0

/-- The symbol under the head. -/
def read (tape : Tape) : Char :=
  tape.cells tape.head

/-- Overwrite the symbol under the head. -/
def write (tape : Tape) (symbol : Char) : Tape :=
  { tape with cells := Function.update tape.cells tape.head symbol }

/-- Move the head by one position; there is none before the first. -/
def move (tape : Tape) : Direction → Tape
  | .left => { tape with head := tape.head - 1 }
  | .right => { tape with head := tape.head + 1 }
  | .stay => tape

/-- Write unless the cell is kept, then move. -/
def act (tape : Tape) (write : Write) (direction : Direction) : Tape :=
  match write with
  | .keep => tape.move direction
  | .put symbol => (tape.write symbol).move direction

end Tape

/-- The state, the number of rules applied so far, and the tapes. -/
structure Configuration where
  state : Nat
  steps : Nat
  tapes : List Tape

namespace Configuration

/-- The symbols under the heads. -/
def symbols (configuration : Configuration) : List Char :=
  configuration.tapes.map Tape.read

/-- The positions of the heads. -/
def heads (configuration : Configuration) : List Nat :=
  configuration.tapes.map Tape.head

/-- Act on every tape, enter the next state and count the step. -/
def apply (configuration : Configuration) (action : Action) : Configuration where
  state := action.next
  steps := configuration.steps + 1
  tapes := List.zipWith3 Tape.act configuration.tapes action.writes action.moves

end Configuration

/-- The configuration before the first step. Tapes without content hold blanks only. -/
def start (machine : Machine) (contents : List String) : Configuration where
  state := machine.initial
  steps := 0
  tapes := (List.range machine.tapeCount).map fun index =>
    Tape.seeded (contents.getD index "").toList machine.blank

/-- Accept in an accepting state, otherwise apply the rule for the symbols read, otherwise
reject. -/
def step (machine : Machine) (configuration : Configuration) : Step × Configuration :=
  if machine.isAccepting configuration.state then (.halted .accepted, configuration)
  else
    match machine.findRule? configuration.state configuration.symbols with
    | some rule => (.applied, configuration.apply rule.action)
    | none =>
      (.halted (.rejected
        { state := machine.stateName configuration.state
          symbols := configuration.symbols }), configuration)

/-- The configuration after `count` steps. -/
def after (machine : Machine) : (count : Nat) → Configuration → Configuration
  | 0, configuration => configuration
  | count + 1, configuration => (step machine (after machine count configuration)).2

/-- The furthest position of the head of a tape during the first `count` steps. -/
def furthest (machine : Machine) (configuration : Configuration) (index : Nat) :
    (count : Nat) → Nat
  | 0 => configuration.heads.getD index 0
  | count + 1 =>
    max (furthest machine configuration index count)
      ((after machine (count + 1) configuration).heads.getD index 0)

end TapeMachine.Ideal
