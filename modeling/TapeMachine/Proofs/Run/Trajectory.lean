import TapeMachine.Run

/-!
# The trajectory of a configuration

`Machine.after` is the configuration after a number of calls of `Machine.step`; calls after the
machine stopped change nothing. `Machine.Stopped` says that the next call reports a halt. Every call
before that applies one rule and counts one step.
-/

namespace TapeMachine

/-- How a run ends that reaches a halt. -/
def Halt.outcome : Halt → Outcome
  | .accepted => .accepted
  | .rejected _ => .rejected

namespace Machine

/-- The configuration after `count` calls of `step`. -/
def after (machine : Machine) : (count : Nat) → Configuration → Configuration
  | 0, configuration => configuration
  | count + 1, configuration => (machine.step (machine.after count configuration)).2

/-- The rule that the next call of `step` applies, if it applies one. -/
def appliedRule? (machine : Machine) (configuration : Configuration) : Option Rule :=
  if machine.isAccepting configuration.state then none
  else machine.findRule? configuration.state configuration.symbols

/-- The next call of `step` reports a halt. -/
def Stopped (machine : Machine) (configuration : Configuration) : Prop :=
  ∃ halt, (machine.step configuration).1 = .halted halt

variable {machine : Machine} {configuration : Configuration}

@[simp]
theorem after_zero : machine.after 0 configuration = configuration := rfl

theorem after_succ (count : Nat) : machine.after (count + 1) configuration =
    (machine.step (machine.after count configuration)).2 := rfl

/-- Calls of `step` add up. -/
theorem after_add (first second : Nat) : machine.after (first + second) configuration =
    machine.after second (machine.after first configuration) := by
  induction second with
  | zero => rfl
  | succ second ih => rw [← Nat.add_assoc, after_succ, ih, after_succ]

/-- What a call of `step` does where an action can be taken. -/
theorem step_of_nextAction {action : Action}
    (next : machine.nextAction configuration = .ok action) :
    machine.step configuration = (.applied, configuration.apply action) := by
  rw [step, next]

/-- What a call of `step` does where no action can be taken. -/
theorem step_of_halt {halt : Halt} (next : machine.nextAction configuration = .error halt) :
    machine.step configuration = (.halted halt, configuration) := by
  rw [step, next]

/-- A rule that is applied was found for the symbols read. -/
theorem findRule?_of_appliedRule? {rule : Rule}
    (applied : machine.appliedRule? configuration = some rule) :
    machine.findRule? configuration.state configuration.symbols = some rule := by
  rw [appliedRule?] at applied
  split at applied
  · cases applied
  · exact applied

/-- The action that can be taken is that of the applied rule. -/
theorem nextAction_eq_ok {action : Action} :
    machine.nextAction configuration = .ok action ↔
      ∃ rule, machine.appliedRule? configuration = some rule ∧ rule.action = action := by
  rw [nextAction, appliedRule?]
  split
  · simp
  · cases machine.findRule? configuration.state configuration.symbols <;> simp

/-- A call of `step` reports a halt exactly where no action can be taken. -/
theorem step_eq_halted {halt : Halt} :
    (machine.step configuration).1 = .halted halt ↔
      machine.nextAction configuration = .error halt := by
  cases next : machine.nextAction configuration with
  | ok action => simp [step_of_nextAction next]
  | error found => simp [step_of_halt next]

/-- A configuration that is not stopped has an action. -/
theorem exists_nextAction (moving : ¬ machine.Stopped configuration) :
    ∃ action, machine.nextAction configuration = .ok action := by
  cases next : machine.nextAction configuration with
  | ok action => exact ⟨action, rfl⟩
  | error halt => exact absurd ⟨halt, step_eq_halted.mpr next⟩ moving

/-- Every call of `step` counts one step at most. -/
theorem steps_after_le (count : Nat) :
    (machine.after count configuration).steps ≤ configuration.steps + count := by
  induction count with
  | zero => exact Nat.le_refl _
  | succ count ih =>
      rw [after_succ]
      cases next : machine.nextAction (machine.after count configuration) with
      | ok action =>
          rw [step_of_nextAction next]
          exact Nat.succ_le_succ ih
      | error halt =>
          rw [step_of_halt next]
          exact Nat.le_succ_of_le ih

/-- Before the machine stops, every call of `step` counts one step. -/
theorem steps_after {count : Nat}
    (moving : ∀ earlier < count, ¬ machine.Stopped (machine.after earlier configuration)) :
    (machine.after count configuration).steps = configuration.steps + count := by
  induction count with
  | zero => rfl
  | succ count ih =>
      have before := ih fun earlier less => moving earlier (by omega)
      obtain ⟨action, next⟩ := exists_nextAction (moving count (by omega))
      rw [after_succ, step_of_nextAction next]
      simp only [Configuration.apply, before]
      omega

end Machine

end TapeMachine
