import TapeMachine.Proofs.Document.Selection
import TapeMachine.Proofs.Run.Words

/-!
# The log of a run

A traced run reports the configurations it passes through at sampled step counts, and every run
reports its end. What one round of the loop adds to the log is said by `events_run_of_halt`,
`events_run_of_spent` and `events_run_of_left`. Samples are taken where a rule is applied, so the
configuration a run ends in is never sampled, and a run that goes on from there samples it.
-/

namespace TapeMachine

/-- The step counts from `first` on and before `last` that a traced run reports. -/
def sampledSteps (first last : Nat) : List Nat :=
  (List.range' first (last - first)).filter fun step => step < 100 ∨ 1000 ∣ step

theorem isSampledStep_eq_true {step : Nat} :
    isSampledStep step = true ↔ step < 100 ∨ 1000 ∣ step := by
  simp [isSampledStep, Nat.dvd_iff_mod_eq_zero]

@[simp]
theorem sampledSteps_self (first : Nat) : sampledSteps first first = [] := by
  simp [sampledSteps]

/-- The first step count is reported if it is sampled, and the others as from the next one on. -/
theorem sampledSteps_of_lt {first last : Nat} (less : first < last) :
    sampledSteps first last =
      (if isSampledStep first then [first] else []) ++ sampledSteps (first + 1) last := by
  have count : last - first = last - (first + 1) + 1 := by omega
  rw [sampledSteps, count, List.range'_succ, List.filter_cons, sampledSteps]
  by_cases sampled : first < 100 ∨ 1000 ∣ first
  · simp [isSampledStep_eq_true.mpr sampled, sampled]
  · simp [mt isSampledStep_eq_true.mp sampled, sampled]

theorem mem_sampledSteps {first last step : Nat} (member : step ∈ sampledSteps first last) :
    first ≤ step ∧ step < last := by
  have inRange := List.mem_range'_1.mp (List.mem_of_mem_filter member)
  omega

namespace Machine

variable {machine : Machine} {config : RunConfig} {configuration : Configuration}

/-- The event that closes a run, by its outcome and the configuration it ends in. -/
def closingEvent (machine : Machine) (config : RunConfig) (configuration : Configuration) :
    Outcome → Event
  | .accepted => .accepted (machine.stateName configuration.state) configuration.steps
  | .rejected =>
    .rejected (machine.stateName configuration.state) configuration.symbols configuration.steps
  | .stepLimitExceeded =>
    .limitExceeded config.maxSteps (machine.stateName configuration.state) configuration.heads

/-- Every run closes with the name of the state it ends in. -/
theorem lookup_state_closingEvent (outcome : Outcome) :
    (machine.closingEvent config configuration outcome).fields.lookup "state" =
      some (.text (machine.stateName configuration.state)) := by
  cases outcome <;> rfl

/-- The outcome alone decides how severe the end of a run is and what its message says. -/
theorem level_message_closingEvent (outcome : Outcome) :
    ((machine.closingEvent config configuration outcome).level,
        (machine.closingEvent config configuration outcome).message) =
      match outcome with
      | .accepted => (.debug, "machine accepted")
      | .rejected => (.debug, "no transition matches, machine rejected")
      | .stepLimitExceeded => (.warn, "step limit exceeded") := by
  cases outcome <;> rfl

/-- What a traced run samples from a configuration on, before it has counted `last` steps. -/
def samples (machine : Machine) (configuration : Configuration) (last : Nat) : List Event :=
  (sampledSteps configuration.steps last).map fun step =>
    machine.sampledEvent (machine.after (step - configuration.steps) configuration)

/-- Where a rule is applied, the configuration is sampled before the one it leads to. -/
theorem samples_of_nextAction {action : Action} {last : Nat}
    (next : machine.nextAction configuration = .ok action) (less : configuration.steps < last) :
    machine.samples configuration last =
      (if isSampledStep configuration.steps then [machine.sampledEvent configuration] else []) ++
        machine.samples (configuration.apply action) last := by
  have counted : (configuration.apply action).steps = configuration.steps + 1 := rfl
  rw [samples, samples, sampledSteps_of_lt less, List.map_append, counted]
  congr 1
  · split <;> simp
  · apply List.map_congr_left
    intro step member
    have later := mem_sampledSteps member
    have shifted : step - configuration.steps = step - (configuration.steps + 1) + 1 := by omega
    rw [shifted, after_succ_of_nextAction next]

/-- A rejection names the state and the symbols it happens in. -/
theorem rejection_of_nextAction {rejection : Rejection}
    (next : machine.nextAction configuration = .error (.rejected rejection)) :
    rejection = ⟨machine.stateName configuration.state, configuration.symbols⟩ := by
  rw [nextAction] at next
  split at next
  · cases next
  · split at next
    · cases next
    · cases next
      rfl

/-- The events of a run come after those reported before it. -/
theorem events_runFor (config : RunConfig) (fuel : Nat) (configuration : Configuration)
    (events : Array Event) :
    (machine.runFor config fuel configuration events).events =
      events ++ (machine.runFor config fuel configuration #[]).events := by
  induction fuel generalizing configuration events with
  | zero =>
      rw [runFor.eq_def, runFor.eq_def machine config 0 configuration #[]]
      rcases machine.nextAction configuration with (_ | rejection) | action <;> simp
  | succ fuel ih =>
      rw [runFor.eq_def, runFor.eq_def machine config (fuel + 1) configuration #[]]
      rcases machine.nextAction configuration with (_ | rejection) | action
      · simp
      · simp
      · dsimp only
        rw [ih, ih _ (machine.passingEvents config configuration #[]), ← Array.append_assoc]
        congr 1
        rw [passingEvents, passingEvents]
        split <;> simp

/-- A run that can take no action reports its end only. -/
theorem events_run_of_halt {halt : Halt}
    (next : machine.nextAction configuration = .error halt) :
    (machine.run config configuration).events =
      #[machine.closingEvent config configuration halt.outcome] := by
  rw [run, runFor.eq_def, next]
  cases halt with
  | accepted => rfl
  | rejected rejection =>
      obtain rfl := rejection_of_nextAction next
      rfl

/-- A run that needs another action after its budget is spent reports its end only. -/
theorem events_run_of_spent {action : Action}
    (next : machine.nextAction configuration = .ok action)
    (spent : config.maxSteps ≤ configuration.steps) :
    (machine.run config configuration).events =
      #[machine.closingEvent config configuration .stepLimitExceeded] := by
  have empty : config.maxSteps - configuration.steps = 0 := by omega
  rw [run, runFor.eq_def, next, empty]
  rfl

/-- A run that has budget left reports the configuration it passes through, if that is sampled, and
then what it reports from the next one on. -/
theorem events_run_of_left {action : Action}
    (next : machine.nextAction configuration = .ok action)
    (left : configuration.steps < config.maxSteps) :
    (machine.run config configuration).events =
      machine.passingEvents config configuration #[] ++
        (machine.run config (configuration.apply action)).events := by
  rw [run_of_left next left, events_runFor, run]

/-- What a run reports: the samples on its way, if it is traced, and then its end. -/
def log (machine : Machine) (config : RunConfig) (configuration : Configuration)
    (finish : RunEnd) : List Event :=
  (if config.trace then machine.samples configuration finish.configuration.steps else []) ++
    [machine.closingEvent config finish.configuration finish.outcome]

/-- A run that ends where it begins has nothing to sample. -/
theorem log_of_summary {finish : RunEnd} {outcome : Outcome}
    (summary : finish.summary = (outcome, configuration)) :
    machine.log config configuration finish =
      [machine.closingEvent config configuration outcome] := by
  obtain ⟨rfl, rfl⟩ := Prod.mk.inj summary
  simp [log, samples]

/-- A run that applies a rule samples the configuration it leaves. -/
theorem log_of_nextAction {action : Action} {finish : RunEnd}
    (next : machine.nextAction configuration = .ok action)
    (less : configuration.steps < finish.configuration.steps) :
    machine.log config configuration finish =
      (machine.passingEvents config configuration #[]).toList ++
        machine.log config (configuration.apply action) finish := by
  rw [log, log, passingEvents, samples_of_nextAction next less]
  cases config.trace <;> cases isSampledStep configuration.steps <;> simp

/-- The log depends on the end of a run only through its outcome and its last configuration. -/
theorem log_congr {finish other : RunEnd} (same : finish.summary = other.summary) :
    machine.log config configuration finish = machine.log config configuration other := by
  obtain ⟨outcome, last⟩ := Prod.mk.inj same
  rw [log, log, outcome, last]

/-- A run reports the samples on its way, if it is traced, and then its end. -/
theorem toList_events_run (machine : Machine) (config : RunConfig)
    (configuration : Configuration) :
    (machine.run config configuration).events.toList =
      machine.log config configuration (machine.run config configuration) := by
  induction configuration using run_induction machine config with
  | halt configuration halt next =>
      rw [events_run_of_halt next, log_of_summary (summary_run_of_halt next)]
  | spent configuration action next spent =>
      rw [events_run_of_spent next spent, log_of_summary (summary_run_of_spent next spent)]
  | left configuration action next left ih =>
      have counted : (configuration.apply action).steps = configuration.steps + 1 := rfl
      have farther := le_steps_run machine config (configuration.apply action)
      rw [events_run_of_left next left, Array.toList_append, ih,
        log_congr (summary_run_of_left next left), log_of_nextAction next (by omega)]

/-- A run passes through one configuration for each step count up to its last. -/
theorem run_passes (machine : Machine) (config : RunConfig) (configuration : Configuration) :
    let first := configuration.steps
    let last := (machine.run config configuration).configuration.steps
    machine.after (last - first) configuration =
        (machine.run config configuration).configuration ∧
      ∀ step, first ≤ step → step < last →
        (machine.after (step - first) configuration).steps = step ∧
        machine.step (machine.after (step - first) configuration) =
          (.applied, machine.after (step + 1 - first) configuration) := by
  intro first last
  obtain ⟨applied, reached, moving, -⟩ := run_ends_on_trajectory machine config configuration
  have counted : last = first + applied := by
    rw [← steps_after moving, ← reached]
  refine ⟨by rw [reached, counted, Nat.add_sub_cancel_left], fun step atLeast less => ?_⟩
  obtain ⟨count, rfl⟩ := Nat.exists_eq_add_of_le atLeast
  have follows : first + count + 1 - first = count + 1 := by omega
  rw [Nat.add_sub_cancel_left, follows]
  refine ⟨steps_after fun earlier before => moving earlier (by omega), ?_⟩
  obtain ⟨action, next⟩ := exists_nextAction (moving count (by omega))
  rw [after_succ, step_of_nextAction next]

/-- The log of a run is its sampled trajectory. From each step count up to the last, one rule leads
to the next; if the run is traced, it reports the configuration at each step count before the last
that is below a hundred or divisible by a thousand, with the step count, the state, the symbols and
the heads as its fields. Its last event tells how it ends and where. -/
theorem log_is_sampled_trajectory (machine : Machine) (config : RunConfig)
    (configuration : Configuration) :
    let finish := machine.run config configuration
    let first := configuration.steps
    let last := finish.configuration.steps
    let passed := fun step => machine.after (step - first) configuration
    let sampled := (List.range' first (last - first)).filter fun step => step < 100 ∨ 1000 ∣ step
    let closing := machine.closingEvent config finish.configuration finish.outcome
    (passed first = configuration ∧ passed last = finish.configuration ∧
      ∀ step, first ≤ step → step < last →
        (passed step).steps = step ∧ machine.step (passed step) = (.applied, passed (step + 1))) ∧
    finish.events.toList =
      (if config.trace then
        sampled.map fun step => .sampled step (machine.stateName (passed step).state)
          (passed step).symbols (passed step).heads
      else []) ++ [closing] ∧
    (∀ event ∈ finish.events.toList.dropLast, event.level = .info ∧ event.message = "step") ∧
    finish.events.toList.dropLast.map Event.fields =
      (if config.trace then
        sampled.map fun step => [
          ("step", .number step),
          ("state", .text (machine.stateName (passed step).state)),
          ("symbols", .text ("[" ++
            String.intercalate ", " ((passed step).symbols.map Text.quotedSymbol) ++ "]")),
          ("heads", .text ("[" ++ String.intercalate ", " ((passed step).heads.map Nat.repr) ++ "]"))]
      else []) ∧
    closing.fields.lookup "state" =
      some (.text (machine.stateName finish.configuration.state)) ∧
    (closing.level, closing.message) =
      match finish.outcome with
      | .accepted => (.debug, "machine accepted")
      | .rejected => (.debug, "no transition matches, machine rejected")
      | .stepLimitExceeded => (.warn, "step limit exceeded") := by
  intro finish first last passed sampled closing
  obtain ⟨reached, moves⟩ := run_passes machine config configuration
  have samples : machine.samples configuration last =
      sampled.map fun step => .sampled step (machine.stateName (passed step).state)
        (passed step).symbols (passed step).heads := by
    apply List.map_congr_left
    intro step member
    obtain ⟨counted, -⟩ := moves step (mem_sampledSteps member).1 (mem_sampledSteps member).2
    rw [sampledEvent, counted]
  have reported : finish.events.toList = (if config.trace then
      sampled.map fun step => .sampled step (machine.stateName (passed step).state)
        (passed step).symbols (passed step).heads
      else []) ++ [closing] := by
    rw [← samples]
    exact toList_events_run machine config configuration
  refine ⟨⟨?_, reached, moves⟩, reported, ?_, ?_, ?_, ?_⟩
  · simp only [passed, first, Nat.sub_self, after_zero]
  · intro event member
    rw [reported, List.dropLast_concat] at member
    split at member
    · obtain ⟨step, -, rfl⟩ := List.mem_map.mp member
      exact ⟨rfl, rfl⟩
    · cases member
  · rw [reported, List.dropLast_concat]
    split
    · rw [List.map_map]
      rfl
    · rfl
  · exact lookup_state_closingEvent finish.outcome
  · exact level_message_closingEvent finish.outcome

/-- A traced run that gives up after two steps: the configuration it ends in is not sampled. -/
theorem log_of_crowded_is_sampled :
    ∃ initial, Machine.crowded.start ["aa"] = .ok initial ∧
      (Machine.crowded.run { maxSteps := 2, trace := true } initial).events.toList = [
        .sampled 0 "scan" ['a', '_'] [0, 0],
        .sampled 1 "scan" ['a', '_'] [1, 1],
        .limitExceeded 2 "scan" [2, 2]] := by
  have wellFormed := wellFormed_of_ofDocument Document.ofDocument_crowded
  have fit : ["aa"].length ≤ Machine.crowded.tapeCount := by decide
  -- only what the initial configuration shows is evaluated, not its cells
  obtain ⟨initial, started, shows⟩ : ∃ initial, Machine.crowded.start ["aa"] = .ok initial ∧
      initial.Shows .crowded (.start .crowded ["aa"]) :=
    ⟨_, Machine.crowded.start_eq_seeded fit, Configuration.shows_seeded fit⟩
  refine ⟨initial, started, ?_⟩
  obtain ⟨outcome, ended⟩ := wellFormed.run_shows { maxSteps := 2, trace := true } shows
  obtain ⟨-, events, -⟩ := log_is_sampled_trajectory .crowded { maxSteps := 2, trace := true }
    initial
  generalize Machine.crowded.run { maxSteps := 2, trace := true } initial = finish
    at outcome ended events ⊢
  have beginning : initial.steps = 0 := shows.steps
  rw [beginning] at outcome ended events
  have gaveUp : finish.outcome = .stepLimitExceeded := outcome.trans (by decide +kernel)
  have steps : finish.configuration.steps = 2 := ended.steps.trans (by decide +kernel)
  have state : finish.configuration.state = 0 := ended.state.trans (by decide +kernel)
  have heads : finish.configuration.heads = [2, 2] := ended.heads.trans (by decide +kernel)
  have passed (count : Nat) := shows.after wellFormed count
  rw [events, gaveUp, closingEvent, steps, state, heads]
  simp only [(passed _).state, (passed _).symbols, (passed _).heads]
  decide +kernel

end Machine

end TapeMachine
