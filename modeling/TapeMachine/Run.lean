import TapeMachine.Configuration
import TapeMachine.Event

/-!
# Runs

A run applies rules until the machine stops or the next rule would exceed the budget of steps, which
counts the whole life of a configuration. `Machine.run` returns the outcome, the final configuration
and the events of the run: when traced, one for each sampled step, and always one for its end.
-/

namespace TapeMachine

/-- How a run ends. -/
inductive Outcome where
  | accepted
  | rejected
  | stepLimitExceeded
  deriving DecidableEq, Repr

namespace Outcome

/-- The wording of an outcome. -/
def text : Outcome → String
  | .accepted => "accepted"
  | .rejected => "rejected"
  | .stepLimitExceeded => "step limit exceeded"

/-- The name of an outcome, as structured output spells it. -/
def name : Outcome → String
  | .accepted => "Accepted"
  | .rejected => "Rejected"
  | .stepLimitExceeded => "StepLimitExceeded"

/-- All outcomes, in the order in which messages list their names. -/
def all : List Outcome := [.accepted, .rejected, .stepLimitExceeded]

end Outcome

/-- The settings of a run. -/
structure RunConfig where
  /-- How many rules may be applied before the run gives up. -/
  maxSteps : Nat := 100000
  /-- Whether sampled steps are reported. -/
  trace : Bool := false
  deriving DecidableEq, Repr

/-- What a run reports about its final configuration. -/
structure RunResult where
  outcome : Outcome
  /-- The name of the final state. -/
  state : String
  /-- The number of rules applied. -/
  steps : Nat
  heads : List Nat
  /-- The symbols under the heads. -/
  symbols : List Char
  deriving DecidableEq, Repr

/-- The end of a run. -/
structure RunEnd where
  outcome : Outcome
  configuration : Configuration
  /-- The events of the run, in order. -/
  events : Array Event
  deriving Repr

/-- Whether a traced run reports the step with this number: the first hundred, then every
thousandth. -/
def isSampledStep (step : Nat) : Bool :=
  step < 100 || step % 1000 == 0

namespace Machine

/-- The report of a traced run that passes through a configuration. -/
def sampledEvent (machine : Machine) (configuration : Configuration) : Event :=
  .sampled configuration.steps (machine.stateName configuration.state) configuration.symbols
    configuration.heads

/-- The events of a run that passes through a configuration. -/
def passingEvents (machine : Machine) (config : RunConfig) (configuration : Configuration)
    (events : Array Event) : Array Event :=
  if config.trace && isSampledStep configuration.steps then
    events.push (machine.sampledEvent configuration)
  else events

/-- Apply at most `fuel` rules after the given events. -/
def runFor (machine : Machine) (config : RunConfig) (fuel : Nat) (configuration : Configuration)
    (events : Array Event) : RunEnd :=
  match machine.nextAction configuration with
  | .error .accepted =>
    { outcome := .accepted, configuration
      events := events.push
        (.accepted (machine.stateName configuration.state) configuration.steps) }
  | .error (.rejected rejection) =>
    { outcome := .rejected, configuration
      events := events.push (.rejected rejection.state rejection.symbols configuration.steps) }
  | .ok action =>
    match fuel with
    | 0 =>
      { outcome := .stepLimitExceeded, configuration
        events := events.push (.limitExceeded config.maxSteps
          (machine.stateName configuration.state) configuration.heads) }
    | fuel + 1 =>
      let events := machine.passingEvents config configuration events
      machine.runFor config fuel (configuration.apply action) events

/-- Run a configuration to its end. -/
def run (machine : Machine) (config : RunConfig) (configuration : Configuration) : RunEnd :=
  machine.runFor config (config.maxSteps - configuration.steps) configuration #[]

/-- What an outcome reports about a configuration. -/
def result (machine : Machine) (outcome : Outcome) (configuration : Configuration) : RunResult where
  outcome := outcome
  state := machine.stateName configuration.state
  steps := configuration.steps
  heads := configuration.heads
  symbols := configuration.symbols

end Machine

/-- What a run reports about its final configuration. -/
def RunEnd.result (finish : RunEnd) (machine : Machine) : RunResult :=
  machine.result finish.outcome finish.configuration

end TapeMachine
