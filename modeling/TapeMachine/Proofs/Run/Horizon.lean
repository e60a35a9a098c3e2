import TapeMachine.Proofs.Document.Selection
import TapeMachine.Proofs.Refinement
import TapeMachine.Proofs.Run.Lockstep

/-!
# A step reaches one cell further

Heads start on the first cell and move by one cell in a step, so what stands behind position `n` has
no influence on the first `n` steps. `Configuration.AgreeUpTo` relates configurations whose tapes
agree up to a horizon and are otherwise unrestricted: they may differ in symbols, in what is visited
and in what is laid out. Every action keeps the relation, and as long as the heads are on this side of
the horizon, the same symbols are read and the same action is taken.
-/

namespace TapeMachine

namespace Tape

/-- Sound tapes with the heads at the same place and the same symbols up to the horizon. -/
structure AgreeUpTo (horizon : Nat) (first second : Tape) : Prop where
  soundFirst : first.Sound
  soundSecond : second.Sound
  head : first.head = second.head
  symbols : ∀ position ≤ horizon, first.symbolAt position = second.symbolAt position

variable {horizon : Nat} {first second : Tape}

/-- Tapes that agree up to the horizon show the same symbol before it. -/
theorem AgreeUpTo.read_eq (agree : AgreeUpTo horizon first second)
    (near : first.head ≤ horizon) : first.read = second.read := by
  rw [read_eq_symbolAt, read_eq_symbolAt, ← agree.head, agree.symbols _ near]

/-- The same symbol is written at the same place, be it on this side of the horizon or behind it. -/
theorem AgreeUpTo.write (agree : AgreeUpTo horizon first second) (symbol : Char) :
    AgreeUpTo horizon (first.write symbol) (second.write symbol) where
  soundFirst := agree.soundFirst.write symbol
  soundSecond := agree.soundSecond.write symbol
  head := agree.head
  symbols position near := by
    rw [symbolAt_write agree.soundFirst, symbolAt_write agree.soundSecond, agree.head,
      agree.symbols position near]

/-- Moving the heads alike keeps the tapes in agreement. -/
theorem AgreeUpTo.shift (agree : AgreeUpTo horizon first second) (direction : Direction) :
    AgreeUpTo horizon (first.shift direction) (second.shift direction) where
  soundFirst := agree.soundFirst.shift direction
  soundSecond := agree.soundSecond.shift direction
  head := by rw [head_shift, head_shift, agree.head]
  symbols position near := by rw [symbolAt_shift, symbolAt_shift, agree.symbols position near]

end Tape

namespace Configuration

variable {horizon : Nat} {here there : Configuration}

/-- One action keeps two tapes in agreement. -/
theorem agreeUpTo_actOnTape {first second : Tape} (agree : Tape.AgreeUpTo horizon first second)
    (write : Write) (direction : Direction) :
    Tape.AgreeUpTo horizon (actOnTape first write direction)
      (actOnTape second write direction) := by
  cases write with
  | keep => exact agree.shift direction
  | put symbol => exact (agree.write symbol).shift direction

theorem agreeUpTo_actOnTapes {tapes others : TapeBank}
    (agree : List.Forall₂ (Tape.AgreeUpTo horizon) tapes others) (writes : List Write)
    (moves : List Direction) :
    List.Forall₂ (Tape.AgreeUpTo horizon) (actOnTapes tapes writes moves)
      (actOnTapes others writes moves) := by
  induction agree generalizing writes moves with
  | nil =>
      rw [actOnTapes.eq_def]
      exact .nil
  | cons first later ih =>
      cases writes with
      | nil => exact .cons first later
      | cons write writes =>
          cases moves with
          | nil => exact .cons first later
          | cons direction moves =>
              exact .cons (agreeUpTo_actOnTape first write direction) (ih writes moves)

/-- Configurations in the same state whose tapes agree up to the horizon. No head has moved further
than the steps allow. -/
structure AgreeUpTo (horizon : Nat) (here there : Configuration) : Prop where
  state : here.state = there.state
  steps : here.steps = there.steps
  tapes : List.Forall₂ (Tape.AgreeUpTo horizon) here.tapes there.tapes
  heads : ∀ tape ∈ here.tapes, tape.head ≤ here.steps

theorem AgreeUpTo.heads_eq (agree : AgreeUpTo horizon here there) : here.heads = there.heads := by
  rw [Configuration.heads, Configuration.heads, TapeBank.heads, TapeBank.heads,
    ← List.forall₂_eq_eq_eq, List.forall₂_map_left_iff, List.forall₂_map_right_iff]
  exact agree.tapes.imp fun first second tapes => tapes.head

/-- After no more steps than the horizon is away, the same symbols are read. -/
theorem AgreeUpTo.symbols_eq (agree : AgreeUpTo horizon here there)
    (within : here.steps ≤ horizon) : here.symbols = there.symbols := by
  obtain ⟨-, -, tapes, heads⟩ := agree
  have near : ∀ tape ∈ here.tapes, tape.head ≤ horizon :=
    fun tape member => Nat.le_trans (heads tape member) within
  rw [symbols, symbols, TapeBank.read, TapeBank.read]
  generalize here.tapes = first at tapes near
  generalize there.tapes = second at tapes
  induction tapes with
  | nil => rfl
  | cons agree later ih =>
      rw [List.forall_mem_cons] at near
      rw [List.map_cons, List.map_cons, agree.read_eq near.1, ih near.2]

/-- One rule keeps two configurations in agreement. -/
theorem AgreeUpTo.apply (agree : AgreeUpTo horizon here there) (action : Action) :
    AgreeUpTo horizon (here.apply action) (there.apply action) where
  state := rfl
  steps := congrArg (· + 1) agree.steps
  tapes := agreeUpTo_actOnTapes agree.tapes action.writes action.moves
  heads tape member := by
    obtain ⟨before, listed, acted⟩ := Checks.exists_mem_of_forall₂
      (acted_actOnTapes here.tapes action.writes action.moves) member
    exact Nat.le_trans acted.head_le (Nat.succ_le_succ (agree.heads before listed))

end Configuration

namespace Machine

variable {machine : Machine} {horizon : Nat} {here there : Configuration}

/-- Configurations that agree up to the horizon take the same steps until their heads can have
reached it. -/
theorem lockstepWithin_agreeUpTo (machine : Machine) (horizon : Nat) :
    LockstepWithin horizon machine machine (Configuration.AgreeUpTo horizon) where
  steps agree := agree.steps
  next := by
    intro here there agree within
    have same : machine.nextAction here = machine.nextAction there := by
      rw [nextAction, nextAction, agree.state, agree.symbols_eq within]
    cases next : machine.nextAction here with
    | error halt => exact .inl ⟨halt, rfl, same.symm.trans next⟩
    | ok action => exact .inr ⟨action, action, rfl, same.symm.trans next, agree.apply action⟩

/-- Configurations that agree give the same result while their heads are within the horizon. -/
theorem result_eq_of_agreeUpTo (agree : Configuration.AgreeUpTo horizon here there)
    (within : here.steps ≤ horizon) (outcome : Outcome) :
    machine.result outcome here = machine.result outcome there := by
  rw [result, result, agree.state, agree.steps, agree.heads_eq, agree.symbols_eq within]

/-- Contents that agree up to the horizon, with blanks behind their ends. A tape without content
counts as empty. -/
def ContentsAgreeUpTo (machine : Machine) (horizon : Nat) (contents others : List String) : Prop :=
  ∀ index < machine.tapeCount, ∀ position ≤ horizon,
    (contents.getD index "").toList.getD position machine.blank =
      (others.getD index "").toList.getD position machine.blank

instance (machine : Machine) (horizon : Nat) (contents others : List String) :
    Decidable (machine.ContentsAgreeUpTo horizon contents others) :=
  inferInstanceAs (Decidable (∀ index < _, ∀ position ≤ _, _ = _))

/-- Contents that agree up to the horizon seed configurations that do. -/
theorem ContentsAgreeUpTo.seeded {contents others : List String}
    (agree : machine.ContentsAgreeUpTo horizon contents others) :
    (machine.seeded contents).AgreeUpTo horizon (machine.seeded others) where
  state := rfl
  steps := rfl
  tapes := by
    rw [Machine.seeded, Machine.seeded, List.forall₂_map_left_iff, List.forall₂_map_right_iff,
      List.forall₂_same]
    intro index inside
    exact {
      soundFirst := Tape.sound_ofList _ _
      soundSecond := Tape.sound_ofList _ _
      head := rfl
      symbols := fun position near => by
        rw [Tape.ofString, Tape.ofString, Tape.symbolAt_ofList, Tape.symbolAt_ofList]
        exact agree index (List.mem_range.mp inside) position near }
  heads tape member := by
    obtain ⟨index, -, rfl⟩ := List.mem_map.mp member
    exact Nat.le_refl 0

/-- Information travels at one cell per step. On contents that agree up to a horizon, a machine is in
the same state with the same step count, heads and symbols after as many steps as the horizon is away,
and after fewer, and the step that follows has the same result. Runs that may take no more steps give
the same report. -/
theorem information_travels_one_cell_per_step {machine : Machine} {horizon : Nat}
    {contents others : List String} (fit : contents.length ≤ machine.tapeCount)
    (othersFit : others.length ≤ machine.tapeCount)
    (agree : machine.ContentsAgreeUpTo horizon contents others) :
    ∃ initial other, machine.start contents = .ok initial ∧ machine.start others = .ok other ∧
      (∀ count ≤ horizon,
        let here := machine.after count initial
        let there := machine.after count other
        here.state = there.state ∧ here.steps = there.steps ∧ here.heads = there.heads ∧
          here.symbols = there.symbols ∧ (machine.step here).1 = (machine.step there).1) ∧
      ∀ config : RunConfig, config.maxSteps ≤ horizon →
        (machine.run config initial).result machine = (machine.run config other).result machine := by
  have lockstep := machine.lockstepWithin_agreeUpTo horizon
  have begin := agree.seeded
  refine ⟨_, _, machine.start_eq_seeded fit, machine.start_eq_seeded othersFit,
    fun count near => ?_, fun config budget => ?_⟩
  · have fresh : (machine.seeded contents).steps = 0 := rfl
    have stays := lockstep.after begin (by omega : _ + count ≤ horizon)
    have within : (machine.after count (machine.seeded contents)).steps ≤ horizon :=
      Nat.le_trans (steps_after_le count) (by omega)
    exact ⟨stays.state, stays.steps, stays.heads_eq, stays.symbols_eq within,
      (lockstep.step stays within).1⟩
  · have within : (machine.run config (machine.seeded contents)).configuration.steps ≤ horizon :=
      Nat.le_trans (machine.steps_run_le config _) (max_le budget (Nat.zero_le horizon))
    obtain ⟨outcome, last⟩ := lockstep.run budget begin (Nat.zero_le horizon)
    rw [RunEnd.result, RunEnd.result, outcome, result_eq_of_agreeUpTo last within]

/-- A third symbol on the first tape is out of sight for one step, and for every run of one step. -/
theorem crowded_sees_one_cell_per_step :
    ["aaa"].length ≤ Machine.crowded.tapeCount ∧ ["aa"].length ≤ Machine.crowded.tapeCount ∧
      Machine.crowded.ContentsAgreeUpTo 1 ["aaa"] ["aa"] ∧
      ¬ Machine.crowded.ContentsAgreeUpTo 2 ["aaa"] ["aa"] ∧
      ∃ initial other, Machine.crowded.start ["aaa"] = .ok initial ∧
        Machine.crowded.start ["aa"] = .ok other ∧
        (Machine.crowded.after 1 initial).heads = (Machine.crowded.after 1 other).heads ∧
        (Machine.crowded.after 1 initial).symbols = (Machine.crowded.after 1 other).symbols ∧
        (Machine.crowded.run { maxSteps := 1 } initial).result .crowded =
          (Machine.crowded.run { maxSteps := 1 } other).result .crowded := by
  have agree : Machine.crowded.ContentsAgreeUpTo 1 ["aaa"] ["aa"] := by decide
  have fit : ["aaa"].length ≤ Machine.crowded.tapeCount := by decide
  have otherFit : ["aa"].length ≤ Machine.crowded.tapeCount := by decide
  obtain ⟨initial, other, start, otherStart, steps, runs⟩ :=
    information_travels_one_cell_per_step fit otherFit agree
  obtain ⟨-, -, heads, symbols, -⟩ := steps 1 (Nat.le_refl 1)
  exact ⟨fit, otherFit, agree, by decide, initial, other, start, otherStart, heads, symbols,
    runs { maxSteps := 1 } (Nat.le_refl 1)⟩

end Machine

end TapeMachine
