import TapeMachine.Machine
import TapeMachine.Tape.Bank

/-!
# Configurations

A configuration is the current state of a machine, the number of rules applied so far, and its
tapes. `Machine.step` applies one rule: acceptance is checked first, then a rule is selected,
and a configuration without a rule is rejected.
-/

namespace TapeMachine

/-- The state, the number of rules applied so far, and the tapes. -/
structure Configuration where
  state : Nat
  steps : Nat
  tapes : TapeBank
  deriving DecidableEq, Repr, Inhabited

/-- Where a machine found no rule. -/
structure Rejection where
  state : String
  symbols : List Char
  deriving DecidableEq, Repr

/-- Why a machine stops. -/
inductive Halt where
  /-- The current state is accepting. -/
  | accepted
  /-- No rule matches the current configuration. -/
  | rejected (rejection : Rejection)
  deriving DecidableEq, Repr

/-- What a single step did. -/
inductive Step where
  /-- A rule was applied. -/
  | applied
  /-- The machine has stopped and nothing changed. -/
  | halted (halt : Halt)
  deriving DecidableEq, Repr

namespace Configuration

/-- The symbols under the heads. -/
def symbols (configuration : Configuration) : List Char :=
  TapeBank.read configuration.tapes

/-- The positions of the heads. -/
def heads (configuration : Configuration) : List Nat :=
  TapeBank.heads configuration.tapes

/-- Carry out one write and one movement on a tape. -/
def actOnTape (tape : Tape) (write : Write) (direction : Direction) : Tape :=
  match write with
  | .keep => tape.shift direction
  | .put symbol => (tape.write symbol).shift direction

/-- Carry out the writes and movements of an action, tape by tape. -/
def actOnTapes : TapeBank → List Write → List Direction → TapeBank
  | tape :: tapes, write :: writes, direction :: directions =>
    actOnTape tape write direction :: actOnTapes tapes writes directions
  | tapes, _, _ => tapes

/-- Apply an action: the writes, the movements, the next state, and one more step. -/
def apply (configuration : Configuration) (action : Action) : Configuration where
  state := action.next
  steps := configuration.steps + 1
  tapes := actOnTapes configuration.tapes action.writes action.moves

end Configuration

namespace Machine

/-- The configuration before the first step: the initial state, with `contents` on the first tapes
and blanks on the others. -/
def start (machine : Machine) (contents : List String) : Except TapeIndexError Configuration := do
  let tapes ← TapeBank.seed machine.tapeCount contents machine.blank
  return { state := machine.initial, steps := 0, tapes }

/-- The action a machine takes next, or why it cannot take one. -/
def nextAction (machine : Machine) (configuration : Configuration) : Except Halt Action :=
  if machine.isAccepting configuration.state then .error .accepted
  else
    match machine.findRule? configuration.state configuration.symbols with
    | some rule => .ok rule.action
    | none =>
      .error (.rejected
        { state := machine.stateName configuration.state, symbols := configuration.symbols })

/-- Apply one rule, or report why the machine stops. -/
def step (machine : Machine) (configuration : Configuration) : Step × Configuration :=
  match machine.nextAction configuration with
  | .ok action => (.applied, configuration.apply action)
  | .error halt => (.halted halt, configuration)

end Machine

end TapeMachine
