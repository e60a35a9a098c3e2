import TapeMachine.Proofs.Document.Selection
import TapeMachine.Proofs.Refinement
import TapeMachine.Proofs.Run.Budget
import TapeMachine.Session

/-!
# What every operation of a session keeps

`Configuration.InRange` says that the current state is declared, that every head stands on a visited
cell and that the visited cells are laid out. One step keeps it, so a run does, and so does every
operation of a session. Sessions also keep the configuration they began in, which is where a
reset leads back to.
-/

namespace TapeMachine

/-! ## Configurations in range -/

namespace Tape

variable {tape : Tape}

/-- The symbol under the head of a sound tape is that of a cell. -/
theorem Sound.getElem?_head (sound : tape.Sound) : tape.cells[tape.head]? = some tape.read :=
  getElem?_cells (Nat.lt_of_lt_of_le sound.head sound.extent)

/-- A cell of a sound tape that was neither seeded nor visited holds the blank. -/
theorem Sound.cell_eq_blank (sound : tape.Sound) {position : Nat} {symbol : Char}
    (unvisited : tape.extent ≤ position) (cell : tape.cells[position]? = some symbol) :
    symbol = tape.blank := by
  have viewed := sound.tail position unvisited
  rwa [symbolAt, Array.getD_eq_getD_getElem?, cell, Option.getD_some] at viewed

end Tape

namespace Configuration

variable {machine : Machine} {configuration : Configuration}

/-- The configurations in which nothing is looked up out of range: sound ones in a declared state,
whose heads have not moved further than the steps allow. -/
structure InRange (machine : Machine) (configuration : Configuration) : Prop
    extends configuration.Sound machine where
  state : configuration.state < machine.states.size
  heads : ∀ tape ∈ configuration.tapes, tape.head ≤ configuration.steps

end Configuration

namespace Machine

variable {machine : Machine} {configuration : Configuration}

/-- The state that the next action leads to is declared. -/
theorem WellFormed.next_lt_size (wellFormed : machine.WellFormed) {action : Action}
    (next : machine.nextAction configuration = .ok action) :
    action.next < machine.states.size := by
  obtain ⟨rule, applied, rfl⟩ := nextAction_eq_ok.mp next
  have listed := mem_rulesOf_of_findRule? (findRule?_of_appliedRule? applied)
  simpa [signature, stateNames] using (wellFormed.allowsRule listed).next

/-- One step stays in range. -/
theorem WellFormed.inRange_step (wellFormed : machine.WellFormed)
    (inRange : configuration.InRange machine) :
    (machine.step configuration).2.InRange machine := by
  have sound := sound_step inRange.toSound
  have acted := acted_step machine configuration
  cases next : machine.nextAction configuration with
  | error halt =>
      rw [step_of_halt next]
      exact inRange
  | ok action =>
      rw [step_of_nextAction next] at sound acted ⊢
      refine ⟨sound, wellFormed.next_lt_size next, fun tape member => ?_⟩
      obtain ⟨before, listed, acted⟩ := Checks.exists_mem_of_forall₂ acted member
      exact Nat.le_trans acted.head_le (Nat.succ_le_succ (inRange.heads before listed))

/-- Any number of steps stays in range. -/
theorem WellFormed.inRange_after (wellFormed : machine.WellFormed)
    (inRange : configuration.InRange machine) (count : Nat) :
    (machine.after count configuration).InRange machine := by
  induction count with
  | zero => exact inRange
  | succ count ih => exact wellFormed.inRange_step ih

/-- A run stays in range. -/
theorem WellFormed.inRange_run (wellFormed : machine.WellFormed)
    (inRange : configuration.InRange machine) (config : RunConfig) :
    (machine.run config configuration).configuration.InRange machine := by
  obtain ⟨applied, reached, -⟩ := run_ends_on_trajectory machine config configuration
  rw [reached]
  exact wellFormed.inRange_after inRange applied

/-- A machine starts in range. -/
theorem WellFormed.inRange_start (wellFormed : machine.WellFormed) {contents : List String}
    (fit : contents.length ≤ machine.tapeCount) :
    ∃ initial, machine.start contents = .ok initial ∧ initial.InRange machine := by
  obtain ⟨initial, start, sound, seeded, -⟩ := machine.start_eq_ok fit
  refine ⟨initial, start, sound, ?_, fun tape member => ?_⟩
  · have state : initial.state = machine.initial := congrArg Ideal.Configuration.state seeded
    rw [state]
    exact wellFormed.initial
  · have heads : ∀ head ∈ (Ideal.start machine contents).heads, head = 0 := by
      simp [Ideal.start, Ideal.Configuration.heads, Ideal.Tape.seeded]
    rw [← seeded, Configuration.heads_ideal] at heads
    rw [heads tape.head (List.mem_map_of_mem member)]
    exact Nat.zero_le _

end Machine

namespace Session

/-- A session that has just begun. -/
def seeded (machine : Machine) (contents : List String) : Session where
  machine := machine
  initial := machine.seeded contents
  current := machine.seeded contents

/-- A session starts on contents that fit, with them on its tapes. -/
theorem start_eq_seeded {machine : Machine} {contents : List String}
    (fit : contents.length ≤ machine.tapeCount) :
    Session.start machine contents = .ok (seeded machine contents) := by
  rw [Session.start, machine.start_eq_seeded fit]
  rfl

/-! ## Operations -/

/-- What can be done with a session. -/
inductive Operation where
  /-- Take one step. -/
  | step
  /-- Run to an end. -/
  | run (config : RunConfig)
  /-- Go back to the beginning. -/
  | reset
  /-- Replace the content of one tape. -/
  | setTapeContent (index : Nat) (content : String)
  /-- Ask for a state, symbols, heads, contents or the next rule. -/
  | look
  deriving DecidableEq, Repr

/-- The session after an operation. An operation that fails leaves it as it is, and so does a
question. -/
def perform (session : Session) : Operation → Session
  | .step => session.step.2
  | .run config => (session.run config).2
  | .reset => session.reset
  | .setTapeContent index content =>
    match session.setTapeContent index content with
    | .ok next => next
    | .error _ => session
  | .look => session

/-- The session after several operations. -/
def performAll (session : Session) (operations : List Operation) : Session :=
  operations.foldl perform session

variable {session : Session} {index : Nat}

theorem performAll_cons (operation : Operation) (operations : List Operation) :
    session.performAll (operation :: operations) =
      (session.perform operation).performAll operations := rfl

theorem performAll_append (first second : List Operation) :
    session.performAll (first ++ second) = (session.performAll first).performAll second :=
  List.foldl_append

/-- The content of a tape can be replaced exactly if there is such a tape. -/
theorem setTapeContent_of_lt (inside : index < session.current.tapes.length) (content : String) :
    session.setTapeContent index content = .ok
      { session with current := { session.current with
          tapes := List.modify session.current.tapes index fun _ =>
            Tape.ofString content session.machine.blank } } := by
  simp only [setTapeContent, TapeBank.modifyTape, if_pos inside]
  rfl

theorem setTapeContent_of_le (outside : session.current.tapes.length ≤ index) (content : String) :
    session.setTapeContent index content =
      .error { index, tapeCount := session.current.tapes.length } := by
  simp only [setTapeContent, TapeBank.modifyTape, if_neg (Nat.not_lt.mpr outside)]
  rfl

theorem tapeContent_of_le (outside : session.current.tapes.length ≤ index) (trim : Bool) :
    session.tapeContent index trim =
      .error { index, tapeCount := session.current.tapes.length } := by
  simp only [tapeContent, TapeBank.tape, List.getElem?_eq_none outside]
  rfl

/-- No operation changes the machine of a session or the configuration it began in. -/
theorem perform_keeps (session : Session) (operation : Operation) :
    (session.perform operation).machine = session.machine ∧
      (session.perform operation).initial = session.initial := by
  cases operation with
  | step => exact ⟨rfl, rfl⟩
  | run config => exact ⟨rfl, rfl⟩
  | reset => exact ⟨rfl, rfl⟩
  | setTapeContent index content =>
      by_cases inside : index < session.current.tapes.length
      · simp [perform, setTapeContent_of_lt inside]
      · simp [perform, setTapeContent_of_le (Nat.le_of_not_lt inside)]
  | look => exact ⟨rfl, rfl⟩

theorem performAll_keeps (session : Session) (operations : List Operation) :
    (session.performAll operations).machine = session.machine ∧
      (session.performAll operations).initial = session.initial := by
  induction operations generalizing session with
  | nil => exact ⟨rfl, rfl⟩
  | cons operation operations ih =>
      obtain ⟨machine, initial⟩ := session.perform_keeps operation
      rw [performAll_cons, ← machine, ← initial]
      exact ih (session.perform operation)

/-- Every operation of a session that began in range stays in range. -/
theorem inRange_perform (wellFormed : session.machine.WellFormed)
    (initial : session.initial.InRange session.machine)
    (inRange : session.current.InRange session.machine) (operation : Operation) :
    (session.perform operation).current.InRange session.machine := by
  cases operation with
  | step => exact wellFormed.inRange_step inRange
  | run config => exact wellFormed.inRange_run inRange config
  | reset => exact initial
  | look => exact inRange
  | setTapeContent index content =>
      by_cases inside : index < session.current.tapes.length
      · -- Each tape is one of the tapes before, or the fresh one.
        have tapes : ∀ tape ∈ List.modify session.current.tapes index fun _ =>
            Tape.ofString content session.machine.blank,
            tape ∈ session.current.tapes ∨
              tape = Tape.ofString content session.machine.blank := by
          intro tape member
          obtain ⟨other, position⟩ := List.mem_iff_getElem?.mp member
          rw [List.getElem?_modify] at position
          split at position
          · obtain ⟨before, -, rfl⟩ := Option.map_eq_some_iff.mp position
            exact .inr rfl
          · exact .inl (List.mem_of_getElem? (by simpa using position))
        simp only [perform, setTapeContent_of_lt inside]
        refine ⟨⟨by simpa using inRange.tapeCount, fun tape member => ?_⟩, inRange.state,
          fun tape member => ?_⟩
        · rcases tapes tape member with before | rfl
          · exact inRange.tapes tape before
          · exact ⟨Tape.sound_ofList _ _, rfl⟩
        · rcases tapes tape member with before | rfl
          · exact inRange.heads tape before
          · exact Nat.zero_le _
      · simpa only [perform, setTapeContent_of_le (Nat.le_of_not_lt inside)] using inRange

/-- Every sequence of operations stays in range. -/
theorem inRange_performAll (wellFormed : session.machine.WellFormed)
    (initial : session.initial.InRange session.machine)
    (inRange : session.current.InRange session.machine) (operations : List Operation) :
    (session.performAll operations).current.InRange session.machine := by
  induction operations generalizing session with
  | nil => exact inRange
  | cons operation operations ih =>
      have next := inRange_perform wellFormed initial inRange operation
      obtain ⟨machine, first⟩ := session.perform_keeps operation
      rw [performAll_cons]
      rw [← machine] at wellFormed initial next ⊢
      rw [← first] at initial
      exact ih wellFormed initial next

/-- Whatever is done with a session of a compiled machine, the current state and the next one are
declared and there are as many tapes as the machine has. Every head stands on a visited cell and has
moved no further than the step count, visited cells are laid out, and the cells beyond them are
blank. A tape index that is too large is reported with the number of tapes and changes nothing,
replacing a content changes that tape alone, and a reset restores the session as it began. -/
theorem operations_keep_session_in_range {document : Document} {machine : Machine}
    (compiled : Machine.ofDocument document = .ok machine) {contents : List String}
    (fit : contents.length ≤ machine.tapeCount) :
    ∃ session, Session.start machine contents = .ok session ∧ ∀ operations : List Operation,
      let reached := session.performAll operations
      reached.machine = machine ∧
      reached.current.state < machine.states.size ∧
      (∀ action, machine.nextAction reached.current = .ok action →
        action.next < machine.states.size) ∧
      reached.current.tapes.length = machine.tapeCount ∧
      (∀ tape ∈ reached.current.tapes,
        tape.head < tape.extent ∧ tape.extent ≤ tape.cells.size ∧
        (∀ position symbol, tape.extent ≤ position → tape.cells[position]? = some symbol →
          symbol = machine.blank) ∧
        tape.head ≤ reached.current.steps ∧
        tape.cells[tape.head]? = some tape.read ∧ tape.visited.length = tape.extent) ∧
      (∀ index content trim, machine.tapeCount ≤ index →
        reached.setTapeContent index content = .error { index, tapeCount := machine.tapeCount } ∧
        reached.perform (.setTapeContent index content) = reached ∧
        reached.tapeContent index trim = .error { index, tapeCount := machine.tapeCount }) ∧
      (∀ index content, index < machine.tapeCount → ∃ tapes,
        reached.setTapeContent index content =
          .ok { reached with current := { reached.current with tapes } } ∧
        tapes[index]? = some (Tape.ofString content machine.blank) ∧
        ∀ other, other ≠ index → tapes[other]? = reached.current.tapes[other]?) ∧
      reached.reset = session := by
  have wellFormed := Machine.wellFormed_of_ofDocument compiled
  obtain ⟨initial, start, initialInRange⟩ := wellFormed.inRange_start fit
  let session : Session := { machine, initial, current := initial }
  refine ⟨session, by rw [Session.start, start]; rfl, ?_⟩
  intro operations reached
  obtain ⟨sameMachine, sameInitial⟩ :
      reached.machine = machine ∧ reached.initial = initial := session.performAll_keeps operations
  have inRange : reached.current.InRange machine :=
    @inRange_performAll session wellFormed initialInRange initialInRange operations
  have count := inRange.tapeCount
  refine ⟨sameMachine, inRange.state, fun action => wellFormed.next_lt_size, count, ?_, ?_, ?_, ?_⟩
  · intro tape member
    obtain ⟨sound, blank⟩ := inRange.tapes tape member
    refine ⟨sound.head, sound.extent, fun position symbol unvisited cell => ?_,
      inRange.heads tape member, sound.getElem?_head, ?_⟩
    · rw [← blank]
      exact sound.cell_eq_blank unvisited cell
    · simp [Tape.visited_eq sound]
  · intro index content trim outside
    rw [← count] at outside ⊢
    have refused := setTapeContent_of_le outside content
    exact ⟨refused, by simp [perform, refused], tapeContent_of_le outside trim⟩
  · intro index content inside
    rw [← count] at inside
    refine ⟨_, setTapeContent_of_lt inside content, ?_, fun other different => ?_⟩
    · simp [inside, sameMachine]
    · simp [Ne.symm different]
  · rw [reset, sameMachine, sameInitial]

/-- A refused replacement, a run and an accepted replacement later, the tapes are still two, and a
reset undoes everything. -/
theorem session_in_range_crowded :
    let operations : List Operation := [.step, .setTapeContent 2 "a", .run { maxSteps := 9 },
      .setTapeContent 0 "aa", .look]
    Machine.ofDocument .crowded = .ok .crowded ∧ ["a"].length ≤ Machine.crowded.tapeCount ∧
      ∃ session, Session.start .crowded ["a"] = .ok session ∧
        (session.performAll operations).current.tapes.length = 2 ∧
        (session.performAll operations).setTapeContent 2 "a" =
          .error { index := 2, tapeCount := 2 } ∧
        (session.performAll operations).reset = session := by
  intro operations
  have fit : ["a"].length ≤ Machine.crowded.tapeCount := by decide
  obtain ⟨session, start, keeps⟩ :=
    operations_keep_session_in_range Document.ofDocument_crowded fit
  obtain ⟨-, -, -, count, -, refused, -, reset⟩ := keeps operations
  exact ⟨Document.ofDocument_crowded, fit, session, start, count,
    (refused 2 "a" true (Nat.le_refl 2)).1, reset⟩

end Session

end TapeMachine
