import TapeMachine.Command.Transcript
import TapeMachine.Session

/-!
# Running one machine

Running a machine on its tapes, with or without a walk through all its configurations before.
The walk applies the rules that the run would apply, so the run after it only settles the
outcome.
-/

namespace TapeMachine

/-- The line of a configuration in a walk. -/
def Configuration.line (configuration : Configuration) (machine : Machine) : String :=
  "Step: " ++ configuration.steps.repr ++ ", State: " ++ machine.stateName configuration.state ++
    ", Tapes: " ++ Text.bracketed (TapeBank.contents configuration.tapes true) ++
    ", Heads: " ++ Text.numberList configuration.heads

/-- What is seen of each configuration after a step, in a walk of at most `fuel` steps, after
what was `seen` before. The walk ends where the machine stops; the answer is the session there,
all that was seen, and the events of the steps. -/
def Session.walk {α : Type} (view : Configuration → α) (session : Session) (seen : Array α)
    (events : Array Event) : (fuel : Nat) → Session × Array α × Array Event
  | 0 => (session, seen, events)
  | fuel + 1 =>
    match session.step with
    | (.applied, next) =>
      next.walk view (seen.push (view next.current)) (events ++ session.stepEvents.toArray) fuel
    | (.halted _, _) => (session, seen, events)

/-- The summary of a run. -/
def RunResult.summary (result : RunResult) : String :=
  result.outcome.text ++ " in state '" ++ result.state ++ "' after " ++ result.steps.repr ++
    " steps"

/-- The lines of a walk and the end of a run. Without a walk there are no lines. -/
structure MachineRun where
  walked : List String
  finish : RunEnd
  events : Array Event

/-- Run a machine on its tapes, after a walk through the configurations if asked for. -/
def MachineRun.of (machine : Machine) (tapes : List String) (config : RunConfig) (debug : Bool) :
    Except TapeIndexError MachineRun := do
  let session ← Session.start machine tapes
  if debug then
    let view (configuration : Configuration) : String := configuration.line machine
    let (session, walked, events) := session.walk view #[view session.current] #[]
      (config.maxSteps - session.current.steps)
    let (finish, _) := session.run config
    return { walked := walked.toList, finish, events := events ++ finish.events }
  else
    let (finish, _) := session.run config
    return { walked := [], finish, events := finish.events }

/-- The transcript of a run. -/
def MachineRun.transcript (run : MachineRun) (machine : Machine) (debug json : Bool) :
    Transcript :=
  let result := run.finish.result machine
  let tapes := TapeBank.contents run.finish.configuration.tapes true
  let steps := Text.unlines run.walked
  { exitCode := result.outcome.exitCode
    stdout :=
      if json then
        let report := Json.object [("result", result.toSortedJson), ("tapes", .strings tapes)]
        steps ++ Text.line (report.render .pretty)
      else
        steps ++ (if debug then Text.line "\nFinal tapes:" else "") ++
          Text.line (Text.join "\n" tapes)
    stderr := if json then [] else [result.summary]
    events := run.events.toList }

end TapeMachine
