import TapeMachine.Proofs.Run.Budget

/-!
# Runs in lockstep

Two machines run in lockstep along a relation between their configurations if related configurations
stop for the same reason or take actions that leave them related. Runs with the same settings from
related configurations then end with the same outcome, in related configurations. A relation that
says enough for a number of steps only gives a lockstep within that number
(`Machine.LockstepWithin`), for runs that cannot exceed it.
-/

namespace TapeMachine.Machine

variable {machine partner : Machine} {here there : Configuration} {limit : Nat}
  {Related : Configuration → Configuration → Prop}

/-- Related configurations have taken equally many steps. Unless they have taken more steps than the
limit, they stop for the same reason or take actions that leave them related. -/
structure LockstepWithin (limit : Nat) (machine partner : Machine)
    (Related : Configuration → Configuration → Prop) : Prop where
  steps : ∀ {here there}, Related here there → here.steps = there.steps
  next : ∀ {here there}, Related here there → here.steps ≤ limit →
    (∃ halt, machine.nextAction here = .error halt ∧ partner.nextAction there = .error halt) ∨
      ∃ action partnerAction, machine.nextAction here = .ok action ∧
        partner.nextAction there = .ok partnerAction ∧
        Related (here.apply action) (there.apply partnerAction)

namespace LockstepWithin

/-- One step within the limit gives the same result on both sides and stays related. -/
theorem step (lockstep : LockstepWithin limit machine partner Related) (related : Related here there)
    (within : here.steps ≤ limit) :
    (machine.step here).1 = (partner.step there).1 ∧
      Related (machine.step here).2 (partner.step there).2 := by
  rcases lockstep.next related within with
    ⟨halt, next, partnerNext⟩ | ⟨action, partnerAction, next, partnerNext, stays⟩
  · rw [step_of_halt next, step_of_halt partnerNext]
    exact ⟨rfl, related⟩
  · rw [step_of_nextAction next, step_of_nextAction partnerNext]
    exact ⟨rfl, stays⟩

/-- Any number of steps within the limit stays related. -/
theorem after (lockstep : LockstepWithin limit machine partner Related)
    (related : Related here there) {count : Nat} (within : here.steps + count ≤ limit) :
    Related (machine.after count here) (partner.after count there) := by
  induction count with
  | zero => exact related
  | succ count ih =>
      have counted := @steps_after_le machine here count
      exact (lockstep.step (ih (by omega)) (by omega)).2

/-- Runs within the limit have the same outcome and stay related. -/
theorem run (lockstep : LockstepWithin limit machine partner Related) {config : RunConfig}
    (budget : config.maxSteps ≤ limit) (related : Related here there)
    (within : here.steps ≤ limit) :
    (machine.run config here).outcome = (partner.run config there).outcome ∧
      Related (machine.run config here).configuration
        (partner.run config there).configuration := by
  have summaries : ∃ outcome last partnerLast,
      (machine.run config here).summary = (outcome, last) ∧
      (partner.run config there).summary = (outcome, partnerLast) ∧
      Related last partnerLast := by
    -- The budget that is left bounds the rounds of both runs.
    generalize left : config.maxSteps - here.steps = fuel
    induction fuel generalizing here there with
    | zero =>
        rcases lockstep.next related within with
          ⟨halt, next, partnerNext⟩ | ⟨action, partnerAction, next, partnerNext, -⟩
        · exact ⟨_, _, _, summary_run_of_halt next, summary_run_of_halt partnerNext, related⟩
        · have steps := lockstep.steps related
          exact ⟨_, _, _, summary_run_of_spent next (by omega),
            summary_run_of_spent partnerNext (by omega), related⟩
    | succ fuel ih =>
        rcases lockstep.next related within with
          ⟨halt, next, partnerNext⟩ | ⟨action, partnerAction, next, partnerNext, stays⟩
        · exact ⟨_, _, _, summary_run_of_halt next, summary_run_of_halt partnerNext, related⟩
        · have steps := lockstep.steps related
          have counted : (here.apply action).steps = here.steps + 1 := rfl
          rw [summary_run_of_left next (by omega), summary_run_of_left partnerNext (by omega)]
          exact ih stays (by omega) (by omega)
  obtain ⟨outcome, last, partnerLast, summary, partnerSummary, stays⟩ := summaries
  obtain ⟨rfl, rfl⟩ := Prod.mk.inj summary
  obtain ⟨same, rfl⟩ := Prod.mk.inj partnerSummary
  exact ⟨same.symm, stays⟩

end LockstepWithin

/-- Related configurations have taken equally many steps, and stop for the same reason or take
actions that leave them related. -/
structure Lockstep (machine partner : Machine) (Related : Configuration → Configuration → Prop) :
    Prop where
  steps : ∀ {here there}, Related here there → here.steps = there.steps
  next : ∀ {here there}, Related here there →
    (∃ halt, machine.nextAction here = .error halt ∧ partner.nextAction there = .error halt) ∨
      ∃ action partnerAction, machine.nextAction here = .ok action ∧
        partner.nextAction there = .ok partnerAction ∧
        Related (here.apply action) (there.apply partnerAction)

/-- Runs in lockstep have the same outcome and stay related. -/
theorem Lockstep.run (lockstep : Lockstep machine partner Related) (config : RunConfig)
    (related : Related here there) :
    (machine.run config here).outcome = (partner.run config there).outcome ∧
      Related (machine.run config here).configuration
        (partner.run config there).configuration := by
  have within : LockstepWithin (max config.maxSteps here.steps) machine partner Related :=
    ⟨lockstep.steps, fun related _ => lockstep.next related⟩
  exact within.run (Nat.le_max_left _ _) related (Nat.le_max_right _ _)

end TapeMachine.Machine
