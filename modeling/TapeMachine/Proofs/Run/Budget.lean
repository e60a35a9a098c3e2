import Mathlib.Data.Nat.Find
import Mathlib.Order.Bounds.Basic
import TapeMachine.Proofs.Machine.WellFormed
import TapeMachine.Proofs.Run.Trajectory
import TapeMachine.Proofs.Tape
import TapeMachine.Text.Word

/-!
# Runs within a budget

A run asks for the next action first and for the budget only when there is one. The three equations
`summary_run_of_halt`, `summary_run_of_spent` and `summary_run_of_left` are that loop, one for each
way a round can go. `run_reports_first_halt_within_budget` follows: a run ends where its trajectory
first stops, unless the budget ends before.
-/

namespace TapeMachine

/-- The outcome of a run and the configuration it ends in, without its events. -/
def RunEnd.summary (finish : RunEnd) : Outcome × Configuration :=
  (finish.outcome, finish.configuration)

namespace Machine

variable {machine : Machine} {config : RunConfig} {configuration : Configuration}

/-- Neither the events so far nor the settings of the trace have a say in how a run ends. -/
theorem summary_runFor (first second : RunConfig) (fuel : Nat) (configuration : Configuration)
    (events others : Array Event) :
    (machine.runFor first fuel configuration events).summary =
      (machine.runFor second fuel configuration others).summary := by
  induction fuel generalizing configuration events others with
  | zero =>
      rw [runFor.eq_def, runFor.eq_def machine second]
      rcases machine.nextAction configuration with (_ | rejection) | action <;> rfl
  | succ fuel ih =>
      rw [runFor.eq_def, runFor.eq_def machine second]
      rcases machine.nextAction configuration with (_ | rejection) | action
      · rfl
      · rfl
      · exact ih _ _ _

/-- A run that can take no action ends at once with the reason, whatever its budget. -/
theorem summary_run_of_halt {halt : Halt}
    (next : machine.nextAction configuration = .error halt) :
    (machine.run config configuration).summary = (halt.outcome, configuration) := by
  rw [run, runFor.eq_def, next]
  cases halt <;> rfl

/-- A run that needs another action after its budget is spent gives up where it is. -/
theorem summary_run_of_spent {action : Action}
    (next : machine.nextAction configuration = .ok action)
    (spent : config.maxSteps ≤ configuration.steps) :
    (machine.run config configuration).summary = (.stepLimitExceeded, configuration) := by
  have empty : config.maxSteps - configuration.steps = 0 := by omega
  rw [run, runFor.eq_def, next, empty]
  rfl

/-- One round of a run: it may report where it is, and the budget that is left shrinks by one. -/
theorem run_of_left {action : Action} (next : machine.nextAction configuration = .ok action)
    (left : configuration.steps < config.maxSteps) :
    machine.run config configuration =
      machine.runFor config (config.maxSteps - (configuration.apply action).steps)
        (configuration.apply action) (machine.passingEvents config configuration #[]) := by
  have fuel : config.maxSteps - configuration.steps =
      config.maxSteps - (configuration.apply action).steps + 1 := by
    simp only [Configuration.apply]
    omega
  rw [run, runFor.eq_def, next, fuel]

/-- A run that has budget left applies the next action and goes on. -/
theorem summary_run_of_left {action : Action}
    (next : machine.nextAction configuration = .ok action)
    (left : configuration.steps < config.maxSteps) :
    (machine.run config configuration).summary =
      (machine.run config (configuration.apply action)).summary := by
  rw [run_of_left next left, run]
  exact summary_runFor config config _ _ _ _

/-- What holds of every configuration that stops, of every one whose budget is spent, and of every
one whose next action leads to one of which it holds, holds of all: the rounds of a run come to an
end. -/
theorem run_induction (machine : Machine) (config : RunConfig) {motive : Configuration → Prop}
    (halt : ∀ configuration halt, machine.nextAction configuration = .error halt →
      motive configuration)
    (spent : ∀ configuration action, machine.nextAction configuration = .ok action →
      config.maxSteps ≤ configuration.steps → motive configuration)
    (left : ∀ configuration action, machine.nextAction configuration = .ok action →
      configuration.steps < config.maxSteps → motive (configuration.apply action) →
      motive configuration)
    (configuration : Configuration) : motive configuration := by
  -- Every rule uses up one unit of the budget, so what is left of it bounds the rounds.
  generalize budget : config.maxSteps - configuration.steps = fuel
  induction fuel generalizing configuration with
  | zero =>
      cases next : machine.nextAction configuration with
      | error reason => exact halt configuration reason next
      | ok action => exact spent configuration action next (by omega)
  | succ fuel ih =>
      cases next : machine.nextAction configuration with
      | error reason => exact halt configuration reason next
      | ok action =>
          have counted : (configuration.apply action).steps = configuration.steps + 1 := rfl
          exact left configuration action next (by omega) (ih _ (by omega))

/-- The first call of `step` applies the next action. -/
theorem after_succ_of_nextAction {action : Action}
    (next : machine.nextAction configuration = .ok action) (count : Nat) :
    machine.after (count + 1) configuration = machine.after count (configuration.apply action) := by
  rw [Nat.add_comm, after_add, after_succ, after_zero, step_of_nextAction next]

/-- A trajectory that first stops within the budget ends the run there. -/
theorem summary_run_of_stop {halt : Halt} {count : Nat}
    (moving : ∀ earlier < count, ¬ machine.Stopped (machine.after earlier configuration))
    (stop : (machine.step (machine.after count configuration)).1 = .halted halt)
    (within : count = 0 ∨ configuration.steps + count ≤ config.maxSteps) :
    (machine.run config configuration).summary =
      (halt.outcome, machine.after count configuration) := by
  induction count generalizing configuration with
  | zero => exact summary_run_of_halt (step_eq_halted.mp stop)
  | succ count ih =>
      obtain ⟨action, next⟩ := exists_nextAction (moving 0 (by omega))
      rw [after_zero] at next
      rw [summary_run_of_left next (by omega), after_succ_of_nextAction next]
      -- From the next configuration the stop is one step nearer.
      apply ih
      · intro earlier less
        rw [← after_succ_of_nextAction next]
        exact moving (earlier + 1) (by omega)
      · rw [← after_succ_of_nextAction next]
        exact stop
      · right
        simp only [Configuration.apply]
        omega

/-- A trajectory that does not stop before the budget is spent ends the run where it is spent. -/
theorem summary_run_of_moving {left : Nat} (budget : left = config.maxSteps - configuration.steps)
    (moving : ∀ earlier ≤ left, ¬ machine.Stopped (machine.after earlier configuration)) :
    (machine.run config configuration).summary =
      (.stepLimitExceeded, machine.after left configuration) := by
  induction left generalizing configuration with
  | zero =>
      obtain ⟨action, next⟩ := exists_nextAction (moving 0 (by omega))
      exact summary_run_of_spent next (by omega)
  | succ left ih =>
      obtain ⟨action, next⟩ := exists_nextAction (moving 0 (by omega))
      rw [after_zero] at next
      rw [summary_run_of_left next (by omega), after_succ_of_nextAction next]
      apply ih
      · simp only [Configuration.apply]
        omega
      · intro earlier bounded
        rw [← after_succ_of_nextAction next]
        exact moving (earlier + 1) (by omega)

/-- The numbers of calls of `step` after which the next call reports a halt. -/
def stops (machine : Machine) (configuration : Configuration) : Set Nat :=
  {count | machine.Stopped (machine.after count configuration)}

/-- Before the first stop the trajectory moves. -/
theorem moving_of_isLeast {count : Nat} (first : IsLeast (machine.stops configuration) count) :
    ∀ earlier < count, ¬ machine.Stopped (machine.after earlier configuration) :=
  fun _ less stopped => Nat.not_le_of_lt less (first.2 stopped)

/-- A trajectory without a first stop within the budget moves until the budget is spent. -/
theorem moving_of_no_stop
    (unstopped : ¬ ∃ count, IsLeast (machine.stops configuration) count ∧
      (count = 0 ∨ configuration.steps + count ≤ config.maxSteps)) :
    ∀ earlier ≤ config.maxSteps - configuration.steps,
      ¬ machine.Stopped (machine.after earlier configuration) := by
  classical
  intro earlier bounded stopped
  have found : ∃ count, count ∈ machine.stops configuration := ⟨earlier, stopped⟩
  have least : IsLeast (machine.stops configuration) (Nat.find found) :=
    ⟨Nat.find_spec found, fun count member => Nat.find_min' found member⟩
  have early : Nat.find found ≤ earlier := Nat.find_min' found stopped
  exact unstopped ⟨_, least, by omega⟩

/-- Every run either ends at a first stop within its budget or spends the budget; it then stands on
its trajectory, and the steps it applied are those it counted. -/
theorem run_ends_on_trajectory (machine : Machine) (config : RunConfig)
    (configuration : Configuration) :
    ∃ applied, (machine.run config configuration).configuration =
        machine.after applied configuration ∧
      (∀ earlier < applied, ¬ machine.Stopped (machine.after earlier configuration)) ∧
      (applied = 0 ∨ configuration.steps + applied ≤ config.maxSteps) := by
  by_cases stops : ∃ count, IsLeast (machine.stops configuration) count ∧
      (count = 0 ∨ configuration.steps + count ≤ config.maxSteps)
  · obtain ⟨count, first, within⟩ := stops
    obtain ⟨halt, stop⟩ := first.1
    have moving := moving_of_isLeast first
    exact ⟨count, congrArg Prod.snd (summary_run_of_stop moving stop within), moving, within⟩
  · have moving := moving_of_no_stop stops
    exact ⟨_, congrArg Prod.snd (summary_run_of_moving rfl moving),
      fun earlier less => moving earlier (Nat.le_of_lt less), by omega⟩

/-- A run counts no more steps than its budget, unless more were counted before. -/
theorem steps_run_le (machine : Machine) (config : RunConfig) (configuration : Configuration) :
    (machine.run config configuration).configuration.steps ≤
      max config.maxSteps configuration.steps := by
  obtain ⟨applied, reached, -, within⟩ := run_ends_on_trajectory machine config configuration
  have counted := @steps_after_le machine configuration applied
  rw [reached]
  omega

/-- A run does not take steps back. -/
theorem le_steps_run (machine : Machine) (config : RunConfig) (configuration : Configuration) :
    configuration.steps ≤ (machine.run config configuration).configuration.steps := by
  obtain ⟨applied, reached, moving, -⟩ := run_ends_on_trajectory machine config configuration
  rw [reached, steps_after moving]
  exact Nat.le_add_right _ _

/-- Every step that a run takes starts below the budget. -/
theorem steps_lt_of_taken {count : Nat}
    (taken : configuration.steps + count <
      (machine.run config configuration).configuration.steps) :
    (machine.after count configuration).steps < config.maxSteps := by
  obtain ⟨applied, reached, moving, within⟩ := run_ends_on_trajectory machine config configuration
  rw [reached, steps_after moving] at taken
  rw [steps_after fun earlier less => moving earlier (by omega)]
  omega

/-- A run ends where its trajectory first stops and reports that halt, if it stops at once or
within the budget, which counts the steps taken before the run as well. Otherwise it applies as many
rules as the budget leaves and reports that the budget is spent. Either way its result describes the
configuration it ends in, no step count leaves 64 bits on the way, and the trace has no
influence. -/
theorem run_reports_first_halt_within_budget (machine : Machine) (config : RunConfig)
    (configuration : Configuration) (budgetFits : config.maxSteps < Text.wordLimit) :
    let finish := machine.run config configuration
    (∀ count halt, IsLeast (machine.stops configuration) count →
      (machine.step (machine.after count configuration)).1 = .halted halt →
      (count = 0 ∨ configuration.steps + count ≤ config.maxSteps) →
      finish.configuration = machine.after count configuration ∧
        finish.configuration.steps = configuration.steps + count ∧
        finish.outcome = halt.outcome) ∧
    ((¬ ∃ count, IsLeast (machine.stops configuration) count ∧
        (count = 0 ∨ configuration.steps + count ≤ config.maxSteps)) →
      finish.configuration =
          machine.after (config.maxSteps - configuration.steps) configuration ∧
        finish.configuration.steps =
          configuration.steps + (config.maxSteps - configuration.steps) ∧
        finish.outcome = .stepLimitExceeded) ∧
    finish.result machine =
      { outcome := finish.outcome
        state := machine.stateName finish.configuration.state
        steps := finish.configuration.steps
        heads := finish.configuration.heads
        symbols := finish.configuration.symbols } ∧
    (∀ count, configuration.steps + count < finish.configuration.steps →
      (machine.after count configuration).steps + 1 < Text.wordLimit) ∧
    ∀ trace, (machine.run { config with trace } configuration).outcome = finish.outcome ∧
      (machine.run { config with trace } configuration).configuration = finish.configuration := by
  intro finish
  refine ⟨?_, ?_, rfl, ?_, ?_⟩
  · intro count halt first stop within
    have moving := moving_of_isLeast first
    have summary := summary_run_of_stop moving stop within
    have reached : finish.configuration = machine.after count configuration :=
      congrArg Prod.snd summary
    exact ⟨reached, by rw [reached, steps_after moving], congrArg Prod.fst summary⟩
  · intro unstopped
    have moving := moving_of_no_stop unstopped
    have summary := summary_run_of_moving rfl moving
    have reached : finish.configuration =
        machine.after (config.maxSteps - configuration.steps) configuration :=
      congrArg Prod.snd summary
    refine ⟨reached, ?_, congrArg Prod.fst summary⟩
    rw [reached, steps_after fun earlier less => moving earlier (Nat.le_of_lt less)]
  · intro count taken
    have below := steps_lt_of_taken taken
    omega
  · intro trace
    have same := @summary_runFor machine { config with trace } config
      (config.maxSteps - configuration.steps) configuration #[] #[]
    exact ⟨congrArg Prod.fst same, congrArg Prod.snd same⟩

/-- A machine that stops exactly where its budget ends still reports its halt. -/
theorem run_awkward_accepts_at_budget :
    let start : Configuration := { state := 0, steps := 0, tapes := [Tape.ofList [' '] '\n'] }
    1 < Text.wordLimit ∧
      (Machine.awkward.run { maxSteps := 1 } start).configuration =
        Machine.awkward.after 1 start ∧
      (Machine.awkward.run { maxSteps := 1 } start).outcome = .accepted := by
  intro start
  have symbols : start.symbols = [' '] := by
    simp [start, Configuration.symbols, TapeBank.read, Tape.read_eq_symbolAt]
  have next : Machine.awkward.nextAction start =
      .ok { writes := [.put '\''], moves := [.right], next := 1 } := by
    rw [nextAction, symbols]
    rfl
  have accepts : (Machine.awkward.step (Machine.awkward.after 1 start)).1 = .halted .accepted := by
    rw [after_succ, after_zero, step_of_nextAction next]
    rfl
  have first : IsLeast (Machine.awkward.stops start) 1 := by
    refine ⟨⟨.accepted, accepts⟩, fun count stopped => ?_⟩
    cases count with
    | zero =>
        obtain ⟨halt, stop⟩ := stopped
        rw [after_zero, step_of_nextAction next] at stop
        cases stop
    | succ count => omega
  obtain ⟨reached, -, outcome⟩ :=
    (run_reports_first_halt_within_budget Machine.awkward { maxSteps := 1 } start (by decide)).1
      1 .accepted first accepts (.inr (by decide))
  exact ⟨by decide, reached, outcome⟩

end Machine

end TapeMachine
