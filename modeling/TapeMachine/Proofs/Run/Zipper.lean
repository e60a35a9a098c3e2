import Mathlib.Data.List.GetD
import TapeMachine.Proofs.Run.Ideal

/-!
# Runs over words

Where every tape holds a word, a configuration of the ideal machine is a list of zippers: the symbols
before each head and the symbols from it on. Actions on zippers compute, and what they compute is
what the ideal tapes do (`Ideal.Zipper.act_tape`), so a path of the machine is followed by
evaluation. `Machine.WellFormed.report_of_leads` turns such a path into the report of a run.
-/

namespace TapeMachine

namespace Ideal

/-- A word on a tape, divided by the head. -/
structure Zipper where
  /-- The symbols before the head, the nearest first. -/
  before : List Char
  /-- The symbols from the head on. Behind them are blanks. -/
  after : List Char
  deriving DecidableEq, Repr

namespace Zipper

variable {blank : Char} {zipper : Zipper}

/-- The whole word. -/
def word (zipper : Zipper) : List Char :=
  zipper.before.reverse ++ zipper.after

/-- The tape that holds the word. -/
def tape (blank : Char) (zipper : Zipper) : Tape :=
  .holding zipper.word blank zipper.before.length

/-- The symbol under the head. -/
def read (blank : Char) (zipper : Zipper) : Char :=
  zipper.after.headD blank

/-- Overwrite the symbol under the head. -/
def write (zipper : Zipper) (symbol : Char) : Zipper where
  before := zipper.before
  after := symbol :: zipper.after.tail

/-- Move the head by one position; there is none before the first. -/
def move (blank : Char) (zipper : Zipper) : Direction → Zipper
  | .left =>
    match zipper.before with
    | [] => zipper
    | symbol :: before => ⟨before, symbol :: zipper.after⟩
  | .right => ⟨zipper.read blank :: zipper.before, zipper.after.tail⟩
  | .stay => zipper

/-- Write unless the cell is kept, then move. -/
def act (blank : Char) (zipper : Zipper) (write : Write) (direction : Direction) : Zipper :=
  match write with
  | .keep => zipper.move blank direction
  | .put symbol => (zipper.write symbol).move blank direction

theorem read_tape : (zipper.tape blank).read = zipper.read blank := by
  simp only [Tape.read, tape, Tape.holding, Tape.seeded, word, read]
  rw [← List.length_reverse, List.getD_append_right _ _ _ _ le_rfl, Nat.sub_self]
  cases zipper.after <;> rfl

theorem write_tape (symbol : Char) :
    (zipper.tape blank).write symbol = (zipper.write symbol).tape blank := by
  obtain ⟨before, after⟩ := zipper
  simp only [Tape.write, tape, Tape.holding, Tape.seeded, word, write]
  congr 1
  funext position
  rw [Function.update_apply, ← List.length_reverse]
  rcases Nat.lt_trichotomy position before.reverse.length with inside | rfl | behind
  · rw [if_neg inside.ne, List.getD_append _ _ _ _ inside, List.getD_append _ _ _ _ inside]
  · rw [if_pos rfl, List.getD_append_right _ _ _ _ le_rfl, Nat.sub_self, List.getD_cons_zero]
  · obtain ⟨offset, rfl⟩ := Nat.exists_eq_add_of_lt behind
    rw [if_neg behind.ne', List.getD_append_right _ _ _ _ behind.le,
      List.getD_append_right _ _ _ _ behind.le, Nat.add_assoc, Nat.add_sub_cancel_left]
    cases after <;> rfl

theorem move_tape (direction : Direction) :
    (zipper.tape blank).move direction = (zipper.move blank direction).tape blank := by
  obtain ⟨before, after⟩ := zipper
  cases direction with
  | stay => rfl
  | left =>
      cases before with
      | nil => rfl
      | cons symbol before => simp [Tape.move, tape, Tape.holding, word, move]
  | right =>
      have cells : (Tape.seeded (before.reverse ++ after) blank).cells =
          (Tape.seeded ((after.headD blank :: before).reverse ++ after.tail) blank).cells := by
        cases after with
        | nil =>
            -- The head leaves the word, which gets one more blank.
            funext position
            have extended := TapeMachine.Tape.getD_append_blank before.reverse blank position
            simpa [Tape.seeded] using extended.symm
        | cons symbol after => simp
      simp [Tape.move, tape, Tape.holding, word, move, read, cells]

theorem act_tape (write : Write) (direction : Direction) :
    (zipper.tape blank).act write direction = (zipper.act blank write direction).tape blank := by
  cases write with
  | keep => exact move_tape direction
  | put symbol =>
      rw [Tape.act, write_tape, move_tape]
      rfl

/-- Acting on zippers one by one is acting on their tapes one by one. -/
theorem zipWith3_act_tape (zippers : List Zipper) (writes : List Write) (moves : List Direction) :
    List.zipWith3 Tape.act (zippers.map (tape blank)) writes moves =
      (List.zipWith3 (act blank) zippers writes moves).map (tape blank) := by
  induction zippers generalizing writes moves with
  | nil => rfl
  | cons zipper zippers ih =>
      cases writes with
      | nil => rfl
      | cons write writes =>
          cases moves with
          | nil => rfl
          | cons direction moves =>
              rw [List.map_cons, List.zipWith3, List.zipWith3, List.map_cons, act_tape, ih]

end Zipper

/-- The configuration of a machine with words on its tapes. -/
def Configuration.ofZippers (machine : Machine) (state steps : Nat) (zippers : List Zipper) :
    Configuration where
  state := state
  steps := steps
  tapes := zippers.map (Zipper.tape machine.blank)

variable {machine : Machine} {state steps : Nat} {zippers : List Zipper}

theorem Configuration.symbols_ofZippers :
    (ofZippers machine state steps zippers).symbols =
      zippers.map (Zipper.read machine.blank) := by
  rw [symbols, ofZippers, List.map_map]
  exact List.map_congr_left fun zipper _ => Zipper.read_tape

theorem Configuration.heads_ofZippers :
    (ofZippers machine state steps zippers).heads = zippers.map (·.before.length) := by
  rw [heads, ofZippers, List.map_map]
  rfl

/-- A machine that gets a word for each tape starts with the heads before the words. -/
theorem start_eq_ofZippers {words : List (List Char)} (fit : words.length = machine.tapeCount) :
    start machine (words.map String.ofList) =
      .ofZippers machine machine.initial 0 (words.map fun word => ⟨[], word⟩) := by
  rw [start, Configuration.ofZippers, ← fit, List.map_map]
  congr 1
  apply List.ext_getElem
  · simp
  · intro index _ inside
    have listed : index < words.length := by simpa using inside
    simp [listed, Zipper.tape, Zipper.word, Tape.holding, Tape.seeded]

variable {symbols : List Char}

/-- The rule for the symbols under the heads acts on the zippers. -/
theorem step_ofZippers {rule : Rule} {next : Configuration}
    (moves : machine.isAccepting state = false)
    (found : machine.findRule? state symbols = some rule)
    (reads : zippers.map (Zipper.read machine.blank) = symbols)
    (acted : .ofZippers machine rule.action.next (steps + 1) (List.zipWith3
      (Zipper.act machine.blank) zippers rule.action.writes rule.action.moves) = next) :
    step machine (.ofZippers machine state steps zippers) = (.applied, next) := by
  rw [← reads, ← @Configuration.symbols_ofZippers machine state steps] at found
  rw [step_of_findRule? moves found, Configuration.apply, Configuration.ofZippers,
    Zipper.zipWith3_act_tape, ← acted]
  rfl

/-- A machine rejects where it has no rule for the symbols under the heads. -/
theorem step_ofZippers_eq_none (moves : machine.isAccepting state = false)
    (unmatched : machine.findRule? state symbols = none)
    (reads : zippers.map (Zipper.read machine.blank) = symbols) :
    (step machine (.ofZippers machine state steps zippers)).1 =
      .halted (.rejected ⟨machine.stateName state, symbols⟩) := by
  rw [← reads, ← @Configuration.symbols_ofZippers machine state steps] at unmatched ⊢
  exact step_of_findRule?_eq_none moves unmatched

/-- A state that overwrites a symbol and moves right goes through all repetitions of the symbol. -/
theorem leads_sweep {symbol : Char} {pattern : Pattern} {write : Write}
    (moves : machine.isAccepting state = false)
    (found : machine.findRule? state [symbol] = some ⟨pattern, ⟨[write], [.right], state⟩⟩)
    (count : Nat) {before after : List Char} :
    Leads machine count
      (.ofZippers machine state steps [⟨before, List.replicate count symbol ++ after⟩])
      (.ofZippers machine state (steps + count)
        [⟨List.replicate count (write.written symbol) ++ before, after⟩]) := by
  induction count generalizing steps before with
  | zero => exact .refl _
  | succ count ih =>
      have first : step machine (.ofZippers machine state steps
          [⟨before, symbol :: (List.replicate count symbol ++ after)⟩]) =
          (.applied, .ofZippers machine state (steps + 1)
            [⟨write.written symbol :: before, List.replicate count symbol ++ after⟩]) :=
        step_ofZippers moves found rfl (by cases write <;> rfl)
      have path := Leads.head first ih
      rwa [Nat.add_right_comm, List.append_cons (List.replicate count _), ← List.replicate_succ']
        at path

end Ideal

namespace Machine

variable {machine : Machine} {config : RunConfig}

/-- A path of the ideal machine to a halt is what a run reports, with the words on its tapes. -/
theorem WellFormed.report_of_leads (wellFormed : machine.WellFormed) (words : List (List Char))
    (fit : words.length = machine.tapeCount) {count state steps : Nat} {zippers : List Ideal.Zipper}
    (leads : Ideal.Leads machine count
      (.ofZippers machine machine.initial 0 (words.map fun word => ⟨[], word⟩))
      (.ofZippers machine state steps zippers)) {halt : Halt}
    (halts : (Ideal.step machine (.ofZippers machine state steps zippers)).1 = .halted halt)
    (within : count ≤ config.maxSteps) :
    (machine.runOn config (words.map String.ofList)).map machine.report = .ok
      { result :=
          { outcome := halt.outcome
            state := machine.stateName state
            steps := steps
            heads := zippers.map (·.before.length)
            symbols := zippers.map (Ideal.Zipper.read machine.blank) }
        tapes := zippers.map fun zipper =>
          String.ofList (Tape.trimBlanks machine.blank zipper.word) } := by
  rw [← Ideal.start_eq_ofZippers fit] at leads
  obtain ⟨finish, ran, sound, ended, result⟩ :=
    wellFormed.runOn_of_leads (by rw [List.length_map, fit]) leads halts within
  have cells : finish.configuration.ideal.tapes.map Ideal.Tape.cells =
      (zippers.map Ideal.Zipper.word).map fun word =>
        (Ideal.Tape.seeded word machine.blank).cells := by
    rw [ended, Ideal.Configuration.ofZippers, List.map_map, List.map_map]
    rfl
  rw [ran, Except.map, report, result, sound.contents_eq cells, List.map_map,
    Ideal.Configuration.heads_ofZippers, Ideal.Configuration.symbols_ofZippers]
  rfl

/-- A run gives up where its budget ends before a path of the ideal machine does. -/
theorem WellFormed.report_of_leads_beyond (wellFormed : machine.WellFormed)
    (words : List (List Char)) (fit : words.length = machine.tapeCount) {count : Nat}
    {last : Ideal.Configuration}
    (leads : Ideal.Leads machine count
      (.ofZippers machine machine.initial 0 (words.map fun word => ⟨[], word⟩)) last)
    (beyond : config.maxSteps < count) :
    ∃ report, (machine.runOn config (words.map String.ofList)).map machine.report = .ok report ∧
      report.result.outcome = .stepLimitExceeded ∧ report.result.steps = config.maxSteps := by
  rw [← Ideal.start_eq_ofZippers fit] at leads
  obtain ⟨finish, ran, outcome, steps⟩ :=
    wellFormed.runOn_of_leads_beyond (by rw [List.length_map, fit]) leads beyond
  exact ⟨machine.report finish, by rw [ran]; rfl, outcome, steps⟩

end Machine

end TapeMachine
