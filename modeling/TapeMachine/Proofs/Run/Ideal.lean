import TapeMachine.Batch
import TapeMachine.Proofs.Refinement
import TapeMachine.Proofs.Run.Budget

/-!
# Runs along the ideal machine

`Ideal.Leads` follows the ideal machine through a number of applied rules. A path of the ideal
machine that ends in a halt is where a run of the engine goes, if its budget is long enough
(`WellFormed.runOn_of_leads`), and the trimmed contents are then read off the ideal tapes. So a
machine can be followed on total tapes, and nothing has to be said about how they are laid out.
-/

namespace TapeMachine

namespace Ideal

variable {machine : Machine} {configuration first middle last : Configuration}

/-- Applying `count` rules leads from one configuration to another. -/
inductive Leads (machine : Machine) : (count : Nat) → Configuration → Configuration → Prop
  | refl (configuration : Configuration) : Leads machine 0 configuration configuration
  | step {count : Nat} {first last next : Configuration} (prior : Leads machine count first last)
      (applied : Ideal.step machine last = (.applied, next)) :
      Leads machine (count + 1) first next

theorem Leads.trans {count more : Nat} (prior : Leads machine count first middle)
    (further : Leads machine more middle last) : Leads machine (count + more) first last := by
  induction further with
  | refl => exact prior
  | step _ applied ih => exact (ih prior).step applied

/-- A path may also be given by its first step and the rest. -/
theorem Leads.head {count : Nat} (applied : Ideal.step machine first = (.applied, middle))
    (further : Leads machine count middle last) : Leads machine (count + 1) first last := by
  have path := ((Leads.refl first).step applied).trans further
  rwa [Nat.zero_add, Nat.add_comm] at path

/-- The rules are applied by successive steps. -/
theorem Leads.after_eq {count : Nat} (leads : Leads machine count first last) :
    Ideal.after machine count first = last := by
  induction leads with
  | refl => rfl
  | step _ applied ih => rw [Ideal.after, ih, applied]

theorem Leads.applied {count : Nat} (leads : Leads machine count first last) :
    ∀ earlier < count, (Ideal.step machine (Ideal.after machine earlier first)).1 = .applied := by
  induction leads with
  | refl => simp
  | @step count _ last _ prior applied ih =>
      intro earlier less
      rcases Nat.lt_succ_iff_lt_or_eq.mp less with before | rfl
      · exact ih earlier before
      · rw [prior.after_eq, applied]

/-- The ideal machine applies the rule it finds. -/
theorem step_of_findRule? {rule : Rule} (moves : machine.isAccepting configuration.state = false)
    (found : machine.findRule? configuration.state configuration.symbols = some rule) :
    Ideal.step machine configuration = (.applied, configuration.apply rule.action) := by
  rw [Ideal.step, moves, found]
  rfl

/-- The ideal machine rejects where it finds no rule. -/
theorem step_of_findRule?_eq_none (moves : machine.isAccepting configuration.state = false)
    (unmatched : machine.findRule? configuration.state configuration.symbols = none) :
    (Ideal.step machine configuration).1 = .halted (.rejected
      ⟨machine.stateName configuration.state, configuration.symbols⟩) := by
  rw [Ideal.step, moves, unmatched]
  rfl

/-- A tape that holds a word from the left end on. -/
def Tape.holding (word : List Char) (blank : Char) (head : Nat) : Tape where
  cells := (Tape.seeded word blank).cells
  head := head

/-- Writing behind a word makes the word longer. -/
theorem Tape.write_holding (word : List Char) (blank symbol : Char) :
    (Tape.holding word blank word.length).write symbol =
      Tape.holding (word ++ [symbol]) blank word.length := by
  simp only [Tape.holding, Tape.write]
  congr 1
  funext position
  simp only [Tape.seeded, Function.update_apply, List.getD_eq_getElem?_getD]
  rcases Nat.lt_trichotomy position word.length with before | rfl | behind
  · rw [if_neg (by omega), List.getElem?_append_left before]
  · simp
  · rw [if_neg (by omega), List.getElem?_eq_none (by omega),
      List.getElem?_eq_none (by simp; omega)]

end Ideal

namespace Machine

open TapeMachine.Configuration

variable {machine : Machine} {configuration : Configuration}

/-- The engine and the ideal machine do the same next, after any number of steps. -/
theorem WellFormed.step_after_eq (wellFormed : machine.WellFormed)
    (sound : configuration.Sound machine) (count : Nat) :
    (machine.step (machine.after count configuration)).1 =
      (Ideal.step machine (Ideal.after machine count configuration.ideal)).1 := by
  rw [wellFormed.ideal_after sound, wellFormed.ideal_step (sound_after sound count)]

/-- The engine does not stop along a path of the ideal machine. -/
theorem WellFormed.moving_of_leads (wellFormed : machine.WellFormed)
    (sound : configuration.Sound machine) {count : Nat} {last : Ideal.Configuration}
    (leads : Ideal.Leads machine count configuration.ideal last) :
    ∀ earlier < count, ¬ machine.Stopped (machine.after earlier configuration) := by
  rintro earlier less ⟨stop, reported⟩
  rw [wellFormed.step_after_eq sound, leads.applied earlier less] at reported
  cases reported

/-- A path of the ideal machine to a halt is the run of the engine. -/
theorem WellFormed.run_of_leads (wellFormed : machine.WellFormed)
    (sound : configuration.Sound machine) {count : Nat} {last : Ideal.Configuration}
    (leads : Ideal.Leads machine count configuration.ideal last) {halt : Halt}
    (halts : (Ideal.step machine last).1 = .halted halt) {config : RunConfig}
    (within : configuration.steps + count ≤ config.maxSteps) :
    (machine.run config configuration).outcome = halt.outcome ∧
      (machine.run config configuration).configuration.Sound machine ∧
      (machine.run config configuration).configuration.ideal = last := by
  have stop : (machine.step (machine.after count configuration)).1 = .halted halt := by
    rw [wellFormed.step_after_eq sound, leads.after_eq, halts]
  have summary :=
    summary_run_of_stop (wellFormed.moving_of_leads sound leads) stop (.inr within)
  have ended : (machine.run config configuration).configuration =
      machine.after count configuration := congrArg Prod.snd summary
  rw [ended, ← leads.after_eq, wellFormed.ideal_after sound]
  exact ⟨congrArg Prod.fst summary, sound_after sound count, rfl⟩

/-- A path of the ideal machine from its start to a halt is what a run reports. -/
theorem WellFormed.runOn_of_leads (wellFormed : machine.WellFormed) {contents : List String}
    (fit : contents.length ≤ machine.tapeCount) {count : Nat} {last : Ideal.Configuration}
    (leads : Ideal.Leads machine count (Ideal.start machine contents) last) {halt : Halt}
    (halts : (Ideal.step machine last).1 = .halted halt) {config : RunConfig}
    (within : count ≤ config.maxSteps) :
    ∃ finish, machine.runOn config contents = .ok finish ∧
      finish.configuration.Sound machine ∧ finish.configuration.ideal = last ∧
      finish.result machine =
        { outcome := halt.outcome
          state := machine.stateName last.state
          steps := last.steps
          heads := last.heads
          symbols := last.symbols } := by
  obtain ⟨initial, start, sound, seeded, -⟩ := machine.start_eq_ok fit
  rw [← seeded] at leads
  have zero : initial.steps = 0 := congrArg Ideal.Configuration.steps seeded
  obtain ⟨outcome, soundLast, rfl⟩ :=
    wellFormed.run_of_leads sound leads halts (by omega : initial.steps + count ≤ config.maxSteps)
  refine ⟨machine.run config initial, by rw [runOn, start]; rfl, soundLast, rfl, ?_⟩
  rw [RunEnd.result, result, outcome, heads_ideal, symbols_ideal]
  rfl

/-- A run gives up where its budget ends before a path of the ideal machine does. -/
theorem WellFormed.runOn_of_leads_beyond (wellFormed : machine.WellFormed)
    {contents : List String} (fit : contents.length ≤ machine.tapeCount) {count : Nat}
    {last : Ideal.Configuration}
    (leads : Ideal.Leads machine count (Ideal.start machine contents) last) {config : RunConfig}
    (beyond : config.maxSteps < count) :
    ∃ finish, machine.runOn config contents = .ok finish ∧
      finish.outcome = .stepLimitExceeded ∧
      finish.configuration.steps = config.maxSteps := by
  obtain ⟨initial, start, sound, seeded, -⟩ := machine.start_eq_ok fit
  rw [← seeded] at leads
  have zero : initial.steps = 0 := congrArg Ideal.Configuration.steps seeded
  have moving := wellFormed.moving_of_leads sound leads
  have summary : (machine.run config initial).summary =
      (.stepLimitExceeded, machine.after config.maxSteps initial) :=
    summary_run_of_moving (by omega) fun earlier bounded => moving earlier (by omega)
  have ended : (machine.run config initial).configuration = machine.after config.maxSteps initial :=
    congrArg Prod.snd summary
  refine ⟨machine.run config initial, by rw [runOn, start]; rfl, congrArg Prod.fst summary, ?_⟩
  rw [ended, steps_after fun earlier less => moving earlier (by omega), zero, Nat.zero_add]

end Machine

/-- The trimmed contents of tapes that hold words from the left end on. -/
theorem Configuration.Sound.contents_eq {machine : Machine} {configuration : Configuration}
    (sound : configuration.Sound machine) {words : List (List Char)}
    (cells : configuration.ideal.tapes.map Ideal.Tape.cells =
      words.map fun word => (Ideal.Tape.seeded word machine.blank).cells) :
    TapeBank.contents configuration.tapes true =
      words.map fun word => String.ofList (Tape.trimBlanks machine.blank word) := by
  rw [Configuration.ideal, List.map_map] at cells
  refine Checks.map_eq_map_of_views cells fun tape listed word _ ideal => ?_
  obtain ⟨soundTape, blank⟩ := sound.tapes tape listed
  rw [← blank] at ideal ⊢
  exact Tape.content_true_of_word soundTape ideal

end TapeMachine
