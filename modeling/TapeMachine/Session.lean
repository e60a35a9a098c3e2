import TapeMachine.Run

/-!
# Sessions

A session is one machine on its tapes. It can be stepped, run, reset to where it began, and
given new tape contents; every operation returns the session after it.
-/

namespace TapeMachine

/-- A machine with the configuration it began in and the configuration it is in. -/
structure Session where
  machine : Machine
  initial : Configuration
  current : Configuration
  deriving Repr

namespace Session

/-- A session on the given tape contents. -/
def start (machine : Machine) (contents : List String) : Except TapeIndexError Session := do
  let initial ← machine.start contents
  return { machine, initial, current := initial }

/-- The event of the next step, if it applies a rule. -/
def stepEvents (session : Session) : List Event :=
  match session.machine.nextAction session.current with
  | .ok action =>
    [.applying session.current.steps (session.machine.stateName session.current.state)
      (session.machine.stateName action.next)]
  | .error _ => []

/-- Take one step. -/
def step (session : Session) : Step × Session :=
  let (result, current) := session.machine.step session.current
  (result, { session with current })

/-- Take up to `count` steps and stop at the first halt. The answer is what the last step did, the
session, and the events of all steps after those in `events`. -/
def advance (session : Session) (count : Nat) (last : Option Step) (events : Array Event) :
    Option Step × Session × Array Event :=
  match count with
  | 0 => (last, session, events)
  | count + 1 =>
    let events := events ++ session.stepEvents.toArray
    match session.step with
    | (.applied, next) => next.advance count (some .applied) events
    | (.halted halt, next) => (some (.halted halt), next, events)

/-- Run to an end. -/
def run (session : Session) (config : RunConfig) : RunEnd × Session :=
  let finish := session.machine.run config session.current
  (finish, { session with current := finish.configuration })

/-- Go back to the configuration the session began in. -/
def reset (session : Session) : Session :=
  { session with current := session.initial }

/-- The rule found for the current state and symbols, whether or not the state is accepting. -/
def rule? (session : Session) : Option Rule :=
  session.machine.findRule? session.current.state session.current.symbols

/-- The content of one tape. -/
def tapeContent (session : Session) (index : Nat) (trim : Bool) : Except TapeIndexError String := do
  let tape ← TapeBank.tape session.current.tapes index
  return tape.content trim

/-- Replace the content of one tape; its head goes back to the left end. -/
def setTapeContent (session : Session) (index : Nat) (content : String) :
    Except TapeIndexError Session := do
  let tapes ← TapeBank.modifyTape session.current.tapes index fun _ =>
    Tape.ofString content session.machine.blank
  return { session with current := { session.current with tapes } }

end Session

end TapeMachine
