import TapeMachine.Proofs.Session.Operations

/-!
# Stepping and running follow one trajectory

`Machine.Reaches` relates a configuration to those that lie ahead of it on its trajectory. Steps and
runs only ever move ahead, and how a run ends does not depend on the place on the trajectory where it
is started, as long as the budget reaches that far. So a session that is only stepped and run is
where a fresh one would be, however the calls were mixed.
-/

namespace TapeMachine

namespace Machine

variable {machine : Machine} {initial reached last : Configuration}

/-- Applying rules leads from the first configuration to the second. -/
def Reaches (machine : Machine) (initial reached : Configuration) : Prop :=
  ∃ count, reached = machine.after count initial ∧
    ∀ earlier < count, ¬ machine.Stopped (machine.after earlier initial)

theorem Reaches.refl (machine : Machine) (initial : Configuration) :
    machine.Reaches initial initial :=
  ⟨0, rfl, by simp⟩

theorem Reaches.trans (first : machine.Reaches initial reached)
    (second : machine.Reaches reached last) : machine.Reaches initial last := by
  obtain ⟨count, rfl, moving⟩ := first
  obtain ⟨more, rfl, movingOn⟩ := second
  refine ⟨count + more, (after_add count more).symm, fun earlier less => ?_⟩
  by_cases before : earlier < count
  · exact moving earlier before
  · have later := movingOn (earlier - count) (by omega)
    rwa [← after_add, Nat.add_sub_cancel' (Nat.le_of_not_lt before)] at later

/-- A step stays on the trajectory. -/
theorem reaches_step (machine : Machine) (configuration : Configuration) :
    machine.Reaches configuration (machine.step configuration).2 := by
  cases next : machine.nextAction configuration with
  | ok action =>
      refine ⟨1, rfl, fun earlier less => ?_⟩
      obtain rfl : earlier = 0 := by omega
      rintro ⟨halt, stop⟩
      rw [after_zero, step_of_nextAction next] at stop
      cases stop
  | error halt =>
      rw [step_of_halt next]
      exact .refl machine configuration

/-- A run stays on the trajectory. -/
theorem reaches_run (machine : Machine) (config : RunConfig) (configuration : Configuration) :
    machine.Reaches configuration (machine.run config configuration).configuration := by
  obtain ⟨applied, reached, moving, -⟩ := run_ends_on_trajectory machine config configuration
  exact ⟨applied, reached, moving⟩

/-- The step counts tell how many rules lead from one configuration to the other. -/
theorem Reaches.eq_after (reaches : machine.Reaches initial reached) :
    initial.steps ≤ reached.steps ∧
      reached = machine.after (reached.steps - initial.steps) initial ∧
      ∀ earlier < reached.steps - initial.steps,
        ¬ machine.Stopped (machine.after earlier initial) := by
  obtain ⟨count, rfl, moving⟩ := reaches
  have counted : (machine.after count initial).steps - initial.steps = count := by
    rw [steps_after moving]
    omega
  rw [counted, steps_after moving]
  exact ⟨Nat.le_add_right _ _, rfl, moving⟩

/-- A run ends alike from every configuration on its trajectory that its budget reaches. -/
theorem Reaches.summary_run (reaches : machine.Reaches initial reached) {config : RunConfig}
    (within : reached.steps ≤ config.maxSteps) :
    (machine.run config initial).summary = (machine.run config reached).summary := by
  obtain ⟨count, rfl, moving⟩ := reaches
  induction count with
  | zero => rfl
  | succ count ih =>
      have movingBefore : ∀ earlier < count, ¬ machine.Stopped (machine.after earlier initial) :=
        fun earlier less => moving earlier (by omega)
      have one : (machine.after (count + 1) initial).steps =
          (machine.after count initial).steps + 1 := by
        rw [steps_after moving, steps_after movingBefore]
        omega
      obtain ⟨action, next⟩ := exists_nextAction (moving count (by omega))
      calc (machine.run config initial).summary
          = (machine.run config (machine.after count initial)).summary :=
            ih movingBefore (by omega)
        _ = (machine.run config (machine.after (count + 1) initial)).summary := by
            rw [summary_run_of_left next (by omega), after_succ, step_of_nextAction next]

/-- A budget counts only beyond the steps that were taken before. -/
theorem summary_run_max (machine : Machine) (first second : RunConfig)
    (configuration : Configuration)
    (budget : second.maxSteps = max first.maxSteps configuration.steps) :
    (machine.run first configuration).summary = (machine.run second configuration).summary := by
  have fuel : first.maxSteps - configuration.steps = second.maxSteps - configuration.steps := by
    omega
  rw [run, run, fuel]
  exact summary_runFor first second _ configuration #[] #[]

/-- A run from anywhere on a trajectory ends as a run from its beginning does, with the greater of
the budget and the steps taken so far. -/
theorem Reaches.summary_run_max (reaches : machine.Reaches initial reached)
    {config fresh : RunConfig} (budget : fresh.maxSteps = max config.maxSteps reached.steps) :
    (machine.run config reached).summary = (machine.run fresh initial).summary := by
  rw [reaches.summary_run (by omega)]
  exact Machine.summary_run_max machine config fresh reached budget

/-- A run after a run ends as one run does, with the greater of the two budgets. -/
theorem summary_run_run (machine : Machine) {first second both : RunConfig}
    (budget : both.maxSteps = max first.maxSteps second.maxSteps) (configuration : Configuration) :
    (machine.run second (machine.run first configuration).configuration).summary =
      (machine.run both configuration).summary := by
  by_cases stops : ∃ count, IsLeast (machine.stops configuration) count ∧
      (count = 0 ∨ configuration.steps + count ≤ first.maxSteps)
  · -- The first run stops, so the second finds the same halt at once.
    obtain ⟨count, least, within⟩ := stops
    obtain ⟨halt, stop⟩ := least.1
    have moving := moving_of_isLeast least
    have ended : (machine.run first configuration).configuration =
        machine.after count configuration :=
      congrArg Prod.snd (summary_run_of_stop moving stop within)
    rw [ended, summary_run_of_halt (step_eq_halted.mp stop),
      summary_run_of_stop moving stop (by omega)]
  · -- The first run spends its budget, unless it was spent before.
    have moving := moving_of_no_stop stops
    have ended : (machine.run first configuration).configuration =
        machine.after (first.maxSteps - configuration.steps) configuration :=
      congrArg Prod.snd (summary_run_of_moving rfl moving)
    have steps := steps_after fun earlier less => moving earlier (Nat.le_of_lt less)
    have reaches := reaches_run machine first configuration
    have taken : (machine.run first configuration).configuration.steps =
        max first.maxSteps configuration.steps := by
      rw [ended, steps]
      omega
    let reached := (machine.run first configuration).configuration
    let enough : RunConfig := { maxSteps := max second.maxSteps reached.steps }
    calc (machine.run second reached).summary
        = (machine.run enough configuration).summary := reaches.summary_run_max rfl
      _ = (machine.run both configuration).summary := by
          refine (Machine.summary_run_max machine both enough configuration ?_).symm
          change max second.maxSteps (machine.run first configuration).configuration.steps = _
          omega

end Machine

namespace Session

/-- The operations that only move ahead. -/
def Operation.Advances : Operation → Prop
  | .step => True
  | .run _ => True
  | _ => False

variable {session : Session}

/-- An operation that advances stays on the trajectory. -/
theorem reaches_perform {operation : Operation} (advances : operation.Advances) :
    session.machine.Reaches session.current (session.perform operation).current := by
  cases operation with
  | step => exact Machine.reaches_step session.machine session.current
  | run config => exact Machine.reaches_run session.machine config session.current
  | reset => exact advances.elim
  | setTapeContent index content => exact advances.elim
  | look => exact advances.elim

/-- However steps and runs are mixed, they stay on the trajectory. -/
theorem reaches_performAll {operations : List Operation}
    (advance : ∀ operation ∈ operations, operation.Advances) :
    session.machine.Reaches session.current (session.performAll operations).current := by
  induction operations generalizing session with
  | nil => exact .refl session.machine session.current
  | cons operation operations ih =>
      rw [List.forall_mem_cons] at advance
      have later := @ih (session.perform operation) advance.2
      -- The trajectory is that of the machine, which no operation replaces.
      rw [(session.perform_keeps operation).1] at later
      exact (reaches_perform advance.1).trans later

/-- Two runs that end alike report alike. -/
theorem result_eq_of_summary_eq {machine : Machine} {first second : RunEnd}
    (same : first.summary = second.summary) : first.result machine = second.result machine := by
  have outcome : first.outcome = second.outcome := congrArg Prod.fst same
  have configuration : first.configuration = second.configuration := congrArg Prod.snd same
  rw [RunEnd.result, RunEnd.result, outcome, configuration]

/-- Any mix of steps and runs stays on one trajectory: afterwards the session is where as many
applied rules as it counts lead from the beginning. A run from there reports what a single run of a
fresh session reports and ends in the same configuration, if the fresh session may take as many
steps as the run or as were taken before, whichever is more. In particular, one run after another is
a single run with the greater budget. -/
theorem stepping_and_running_follow_one_trajectory {machine : Machine} {contents : List String}
    (fit : contents.length ≤ machine.tapeCount) :
    ∃ session, Session.start machine contents = .ok session ∧
      (∀ operations : List Operation, (∀ operation ∈ operations, operation.Advances) →
        let reached := session.performAll operations
        reached.current = machine.after reached.current.steps session.current ∧
        (∀ earlier < reached.current.steps,
          ¬ machine.Stopped (machine.after earlier session.current)) ∧
        ∀ config fresh : RunConfig,
          fresh.maxSteps = max config.maxSteps reached.current.steps →
          (reached.run config).1.result machine = (session.run fresh).1.result machine ∧
          (reached.run config).2.current = (session.run fresh).2.current) ∧
      ∀ first second both : RunConfig, both.maxSteps = max first.maxSteps second.maxSteps →
        ((session.run first).2.run second).1.result machine =
          (session.run both).1.result machine ∧
        ((session.run first).2.run second).2.current = (session.run both).2.current := by
  obtain ⟨initial, start, -, seeded, -⟩ := machine.start_eq_ok fit
  have steps : initial.steps = 0 := congrArg Ideal.Configuration.steps seeded
  let session : Session := { machine, initial, current := initial }
  refine ⟨session, by rw [Session.start, start]; rfl, ?_, ?_⟩
  · intro operations advance reached
    have sameMachine : reached.machine = machine := (session.performAll_keeps operations).1
    have reaches : machine.Reaches initial reached.current :=
      @reaches_performAll session operations advance
    obtain ⟨-, ahead, moving⟩ := reaches.eq_after
    rw [steps, Nat.sub_zero] at ahead moving
    refine ⟨ahead, moving, fun config fresh budget => ?_⟩
    have same := reaches.summary_run_max budget
    simp only [Session.run, sameMachine]
    exact ⟨result_eq_of_summary_eq same, congrArg Prod.snd same⟩
  · intro first second both budget
    have same := machine.summary_run_run budget initial
    exact ⟨result_eq_of_summary_eq same, congrArg Prod.snd same⟩

/-- A run that may take one step, a step, and a run that may take none beyond them. -/
theorem crowded_follows_one_trajectory :
    let operations : List Operation := [.run { maxSteps := 1 }, .step]
    ["a"].length ≤ Machine.crowded.tapeCount ∧ (∀ operation ∈ operations, operation.Advances) ∧
      ∃ session, Session.start .crowded ["a"] = .ok session ∧
        let reached := session.performAll operations
        reached.current = Machine.crowded.after reached.current.steps session.current ∧
        (reached.run { maxSteps := 0 }).1.result .crowded =
          (session.run { maxSteps := reached.current.steps }).1.result .crowded ∧
        ((session.run { maxSteps := 1 }).2.run { maxSteps := 2 }).1.result .crowded =
          (session.run { maxSteps := 2 }).1.result .crowded := by
  intro operations
  have fit : ["a"].length ≤ Machine.crowded.tapeCount := by decide
  have advance : ∀ operation ∈ operations, operation.Advances := by
    simp [operations, Operation.Advances]
  obtain ⟨session, start, follows, again⟩ := stepping_and_running_follow_one_trajectory fit
  obtain ⟨ahead, -, reports⟩ := follows operations advance
  exact ⟨fit, advance, session, start, ahead, (reports { maxSteps := 0 } _ (by simp)).1,
    (again { maxSteps := 1 } { maxSteps := 2 } _ rfl).1⟩

end Session

end TapeMachine
