import TapeMachine.Proofs.Run.Zipper

/-!
# Runs computed on words

A machine can be run on the words that its tapes hold, without laying out a cell. `Words.step` and
`Words.run` compute, and a configuration of the engine that shows some words goes on showing what
they compute (`Configuration.Shows.step`). So what a run of the engine reports can be evaluated
(`Machine.WellFormed.report_eq_words`).
-/

namespace TapeMachine

/-- A configuration with a word on each tape. -/
structure Words where
  state : Nat
  steps : Nat
  zippers : List Ideal.Zipper
  deriving DecidableEq, Repr

namespace Words

/-- The words that a machine starts on, with the heads before them. -/
def start (machine : Machine) (contents : List String) : Words where
  state := machine.initial
  steps := 0
  zippers := (List.range machine.tapeCount).map fun index =>
    ⟨[], (contents.getD index "").toList⟩

/-- The symbols under the heads. -/
def symbols (words : Words) (machine : Machine) : List Char :=
  words.zippers.map (Ideal.Zipper.read machine.blank)

/-- The positions of the heads. -/
def heads (words : Words) : List Nat :=
  words.zippers.map (·.before.length)

/-- The words without trailing blanks. -/
def contents (words : Words) (machine : Machine) : List String :=
  words.zippers.map fun zipper => String.ofList (Tape.trimBlanks machine.blank zipper.word)

/-- Accept in an accepting state, otherwise apply the rule for the symbols read, otherwise
reject. -/
def step (words : Words) (machine : Machine) : Step × Words :=
  if machine.isAccepting words.state then (.halted .accepted, words)
  else
    match machine.findRule? words.state (words.symbols machine) with
    | some rule =>
      (.applied,
        { state := rule.action.next
          steps := words.steps + 1
          zippers := List.zipWith3 (Ideal.Zipper.act machine.blank) words.zippers
            rule.action.writes rule.action.moves })
    | none =>
      (.halted (.rejected
        { state := machine.stateName words.state, symbols := words.symbols machine }), words)

/-- The words after `count` steps. -/
def after (words : Words) (machine : Machine) : (count : Nat) → Words
  | 0 => words
  | count + 1 => ((words.after machine count).step machine).2

/-- Apply at most `fuel` rules. -/
def run (words : Words) (machine : Machine) (fuel : Nat) : Outcome × Words :=
  match words.step machine with
  | (.halted halt, _) => (halt.outcome, words)
  | (.applied, next) =>
    match fuel with
    | 0 => (.stepLimitExceeded, words)
    | fuel + 1 => next.run machine fuel

/-- What is reported about the words that a run ends with. -/
def report (words : Words) (machine : Machine) (outcome : Outcome) : CaseReport where
  result :=
    { outcome
      state := machine.stateName words.state
      steps := words.steps
      heads := words.heads
      symbols := words.symbols machine }
  tapes := words.contents machine

section Rounds

variable {words : Words} {machine : Machine} {fuel : Nat}

/-- A run ends where a step halts. -/
theorem run_of_halted {halt : Halt} (halted : (words.step machine).1 = .halted halt) :
    words.run machine fuel = (halt.outcome, words) := by
  rw [run.eq_def]
  split
  case h_1 same =>
      rw [same] at halted
      cases halted
      rfl
  case h_2 same =>
      rw [same] at halted
      cases halted

/-- A run gives up where it needs another rule without fuel. -/
theorem run_of_spent (applied : (words.step machine).1 = .applied) :
    words.run machine 0 = (.stepLimitExceeded, words) := by
  rw [run.eq_def]
  split
  case h_1 same =>
      rw [same] at applied
      cases applied
  case h_2 => rfl

/-- A run with fuel left goes on with the next words. -/
theorem run_of_left (applied : (words.step machine).1 = .applied) :
    words.run machine (fuel + 1) = (words.step machine).2.run machine fuel := by
  rw [run.eq_def]
  split
  case h_1 same =>
      rw [same] at applied
      cases applied
  case h_2 same => rw [same]

end Rounds

/-- The configuration of the ideal machine with these words on its tapes. -/
def ideal (words : Words) (machine : Machine) : Ideal.Configuration :=
  .ofZippers machine words.state words.steps words.zippers

/-- The ideal machine starts on the words that its tapes are given. -/
theorem ideal_start (machine : Machine) (contents : List String) :
    (start machine contents).ideal machine = Ideal.start machine contents := by
  rw [ideal, start, Ideal.Configuration.ofZippers, Ideal.start, List.map_map]
  rfl

/-- A step on words is a step of the ideal machine. -/
theorem ideal_step (words : Words) (machine : Machine) :
    Ideal.step machine (words.ideal machine) =
      ((words.step machine).1, (words.step machine).2.ideal machine) := by
  have symbols : (words.ideal machine).symbols = words.symbols machine :=
    Ideal.Configuration.symbols_ofZippers
  have state : (words.ideal machine).state = words.state := rfl
  rw [step]
  by_cases accepting : machine.isAccepting words.state
  · rw [Ideal.step, state, if_pos accepting, if_pos accepting]
  · rw [Ideal.step, symbols, state, if_neg accepting, if_neg accepting]
    cases machine.findRule? words.state (words.symbols machine) with
    | none => rfl
    | some rule =>
        simp only [Ideal.Configuration.apply, ideal, Ideal.Configuration.ofZippers,
          Ideal.Zipper.zipWith3_act_tape]

end Words

namespace Configuration

/-- A configuration of the engine that shows words on its tapes. -/
structure Shows (configuration : Configuration) (machine : Machine) (words : Words) : Prop where
  sound : configuration.Sound machine
  ideal : configuration.ideal = words.ideal machine

variable {configuration : Configuration} {machine : Machine} {words : Words}

namespace Shows

/-- The state is that of the words. -/
theorem state (shows : configuration.Shows machine words) : configuration.state = words.state :=
  congrArg Ideal.Configuration.state shows.ideal

/-- The step count is that of the words. -/
theorem steps (shows : configuration.Shows machine words) : configuration.steps = words.steps :=
  congrArg Ideal.Configuration.steps shows.ideal

/-- The symbols under the heads are those of the words. -/
theorem symbols (shows : configuration.Shows machine words) :
    configuration.symbols = words.symbols machine := by
  rw [← symbols_ideal, shows.ideal]
  exact Ideal.Configuration.symbols_ofZippers

/-- The heads stand where those of the words do. -/
theorem heads (shows : configuration.Shows machine words) :
    configuration.heads = words.heads := by
  rw [← heads_ideal, shows.ideal]
  exact Ideal.Configuration.heads_ofZippers

/-- The trimmed tapes are the trimmed words. -/
theorem contents (shows : configuration.Shows machine words) :
    TapeBank.contents configuration.tapes true = words.contents machine := by
  have cells : configuration.ideal.tapes.map Ideal.Tape.cells =
      (words.zippers.map Ideal.Zipper.word).map fun word =>
        (Ideal.Tape.seeded word machine.blank).cells := by
    rw [shows.ideal, Words.ideal, Ideal.Configuration.ofZippers, List.map_map, List.map_map]
    rfl
  rw [shows.sound.contents_eq cells, Words.contents, List.map_map]
  rfl

/-- The engine and the words take the same step. -/
theorem step (shows : configuration.Shows machine words) (wellFormed : machine.WellFormed) :
    (machine.step configuration).1 = (words.step machine).1 ∧
      (machine.step configuration).2.Shows machine (words.step machine).2 := by
  have same := wellFormed.ideal_step shows.sound
  rw [shows.ideal, Words.ideal_step] at same
  obtain ⟨result, reached⟩ := Prod.mk.inj same
  exact ⟨result.symm, Machine.sound_step shows.sound, reached.symm⟩

/-- The engine shows the words on all of its trajectory. -/
theorem after (shows : configuration.Shows machine words) (wellFormed : machine.WellFormed)
    (count : Nat) :
    (machine.after count configuration).Shows machine (words.after machine count) := by
  induction count with
  | zero => exact shows
  | succ count ih => exact (ih.step wellFormed).2

end Shows

/-- A seeded configuration shows its contents. -/
theorem shows_seeded {contents : List String} (fit : contents.length ≤ machine.tapeCount) :
    (machine.seeded contents).Shows machine (Words.start machine contents) := by
  obtain ⟨initial, start, sound, ideal, -⟩ := machine.start_eq_ok fit
  rw [machine.start_eq_seeded fit] at start
  obtain rfl := Except.ok.inj start
  exact ⟨sound, ideal.trans (Words.ideal_start machine contents).symm⟩

end Configuration

namespace Machine

variable {machine : Machine} {config : RunConfig}

/-- A run of the engine ends as the run on words does. -/
theorem WellFormed.run_shows (wellFormed : machine.WellFormed) (config : RunConfig)
    {configuration : Configuration} {words : Words} (shows : configuration.Shows machine words) :
    let finish := (machine.run config configuration).summary
    let ended := words.run machine (config.maxSteps - configuration.steps)
    finish.1 = ended.1 ∧ finish.2.Shows machine ended.2 := by
  dsimp only
  -- Both runs go round by round, on the same budget.
  induction configuration using machine.run_induction config generalizing words with
  | halt configuration halt next =>
      have halted := (shows.step wellFormed).1
      rw [step_of_halt next] at halted
      rw [summary_run_of_halt next, Words.run_of_halted halted.symm]
      exact ⟨rfl, shows⟩
  | spent configuration action next spent =>
      have applied := (shows.step wellFormed).1
      rw [step_of_nextAction next] at applied
      rw [summary_run_of_spent next spent, Nat.sub_eq_zero_of_le spent,
        Words.run_of_spent applied.symm]
      exact ⟨rfl, shows⟩
  | left configuration action next left ih =>
      obtain ⟨applied, follows⟩ := shows.step wellFormed
      rw [step_of_nextAction next] at applied follows
      have fuel : config.maxSteps - configuration.steps =
          config.maxSteps - (configuration.apply action).steps + 1 := by
        simp only [Configuration.apply]
        omega
      rw [summary_run_of_left next left, fuel, Words.run_of_left applied.symm]
      exact ih follows

/-- What a run reports can be computed on words. -/
theorem WellFormed.report_eq_words (wellFormed : machine.WellFormed) {contents : List String}
    (fit : contents.length ≤ machine.tapeCount) (config : RunConfig) :
    let ended := (Words.start machine contents).run machine config.maxSteps
    (machine.runOn config contents).map machine.report = .ok (ended.2.report machine ended.1) := by
  intro ended
  obtain ⟨outcome, shows⟩ := wellFormed.run_shows config (Configuration.shows_seeded fit)
  have ran : machine.runOn config contents = .ok (machine.run config (machine.seeded contents)) := by
    rw [runOn, machine.start_eq_seeded fit]
    rfl
  let finish := machine.run config (machine.seeded contents)
  change finish.outcome = ended.1 at outcome
  change finish.configuration.Shows machine ended.2 at shows
  rw [ran, Except.map, report, RunEnd.result, result, outcome, shows.state, shows.steps, shows.heads,
    shows.symbols, shows.contents]
  rfl

end Machine

end TapeMachine
