import TapeMachine.Proofs.Ideal
import TapeMachine.Proofs.Machine.FindRule
import TapeMachine.Proofs.Run.Trajectory
import TapeMachine.Proofs.Tape

/-!
# The engine refines the ideal machine

`Tape.ideal` forgets how a tape is laid out. On sound tapes it commutes with writing and moving, so
one step of the engine is one step of the ideal machine, and so is every run
(`WellFormed.ideal_after`). What the engine adds, the extent of each tape, is then computed from the
heads of the ideal run alone.
-/

namespace TapeMachine

namespace Tape

variable {tape : Tape}

/-- A tape without its layout. -/
def ideal (tape : Tape) : Ideal.Tape where
  cells := tape.symbolAt
  head := tape.head

/-- A seeded tape is an ideal one with the same content. -/
theorem ideal_ofList (content : List Char) (blank : Char) :
    (ofList content blank).ideal = Ideal.Tape.seeded content blank := by
  have cells : (ofList content blank).symbolAt = fun position => content.getD position blank :=
    funext symbolAt_ofList
  rw [ideal, cells, head_ofList, Ideal.Tape.seeded]

/-- Writing commutes with forgetting the layout. -/
theorem ideal_write (sound : tape.Sound) (symbol : Char) :
    (tape.write symbol).ideal = tape.ideal.write symbol := by
  rw [ideal, Ideal.Tape.write, head_write]
  congr 1
  funext position
  rw [symbolAt_write sound, Function.update_apply]
  rfl

/-- Moving commutes with forgetting the layout. -/
theorem ideal_shift (direction : Direction) :
    (tape.shift direction).ideal = tape.ideal.move direction := by
  have cells : (tape.shift direction).symbolAt = tape.symbolAt := funext symbolAt_shift
  cases direction <;> simp only [ideal, cells, head_shift, moveHead, Ideal.Tape.move]

end Tape

namespace Configuration

/-- An action commutes with forgetting the layout. -/
theorem ideal_actOnTape {tape : Tape} (sound : tape.Sound) (write : Write)
    (direction : Direction) :
    (actOnTape tape write direction).ideal = tape.ideal.act write direction := by
  cases write with
  | keep => exact Tape.ideal_shift direction
  | put symbol =>
      rw [actOnTape, Tape.ideal_shift, Tape.ideal_write sound]
      rfl

/-- With one write and one movement for each tape, an action does on every tape what it does on the
ideal one. -/
theorem ideal_actOnTapes {tapes : TapeBank} {writes : List Write} {moves : List Direction}
    (sound : ∀ tape ∈ tapes, tape.Sound) (writeCount : writes.length = tapes.length)
    (moveCount : moves.length = tapes.length) :
    (actOnTapes tapes writes moves).map Tape.ideal =
      List.zipWith3 Ideal.Tape.act (tapes.map Tape.ideal) writes moves := by
  induction tapes generalizing writes moves with
  | nil =>
      rw [actOnTapes.eq_def]
      rfl
  | cons tape tapes ih =>
      cases writes with
      | nil => simp at writeCount
      | cons write writes =>
          cases moves with
          | nil => simp at moveCount
          | cons direction moves =>
              simp only [List.length_cons, Nat.add_right_cancel_iff] at writeCount moveCount
              have tail := ih (fun later member => sound later (List.mem_cons_of_mem _ member))
                writeCount moveCount
              rw [actOnTapes, List.map_cons, List.map_cons, List.zipWith3, tail,
                ideal_actOnTape (sound tape (by simp))]

/-- What one step may do to a tape: nothing, or one write and one movement. -/
def Acted (before after : Tape) : Prop :=
  after = before ∨ ∃ write direction, after = actOnTape before write direction

/-- Acting keeps a tape sound. -/
theorem Acted.sound {before after : Tape} (acted : Acted before after) (sound : before.Sound) :
    after.Sound := by
  rcases acted with rfl | ⟨write, direction, rfl⟩
  · exact sound
  · cases write with
    | keep => exact sound.shift direction
    | put symbol => exact (sound.write symbol).shift direction

theorem Acted.blank {before after : Tape} (acted : Acted before after) :
    after.blank = before.blank := by
  rcases acted with rfl | ⟨write, direction, rfl⟩
  · rfl
  · cases write <;> rfl

/-- A step extends a tape just as far as the head goes. -/
theorem Acted.extent {before after : Tape} (acted : Acted before after) (sound : before.Sound) :
    after.extent = max before.extent (after.head + 1) := by
  rcases acted with rfl | ⟨write, direction, rfl⟩
  · have inside := sound.head
    omega
  · cases write <;> rfl

/-- A step moves a head by one cell at most. -/
theorem Acted.head_le {before after : Tape} (acted : Acted before after) :
    after.head ≤ before.head + 1 := by
  rcases acted with rfl | ⟨write, direction, rfl⟩
  · omega
  · cases write <;> exact Tape.moveHead_le before.head direction

theorem acted_actOnTapes (tapes : TapeBank) (writes : List Write) (moves : List Direction) :
    List.Forall₂ Acted tapes (actOnTapes tapes writes moves) := by
  fun_induction actOnTapes tapes writes moves with
  | case1 tape tapes write writes direction moves ih =>
      exact .cons (.inr ⟨write, direction, rfl⟩) ih
  | case2 => exact List.forall₂_same.mpr fun tape _ => .inl rfl

/-- A configuration without the layout of its tapes. -/
def ideal (configuration : Configuration) : Ideal.Configuration where
  state := configuration.state
  steps := configuration.steps
  tapes := configuration.tapes.map Tape.ideal

theorem symbols_ideal (configuration : Configuration) :
    configuration.ideal.symbols = configuration.symbols := by
  simp only [Ideal.Configuration.symbols, ideal, List.map_map, symbols, TapeBank.read]
  rfl

theorem heads_ideal (configuration : Configuration) :
    configuration.ideal.heads = configuration.heads := by
  simp only [Ideal.Configuration.heads, ideal, List.map_map, heads, TapeBank.heads]
  rfl

/-- The configurations that a machine can be in: as many tapes as the machine has, each of them
sound and blank where nobody wrote. -/
structure Sound (machine : Machine) (configuration : Configuration) : Prop where
  tapeCount : configuration.tapes.length = machine.tapeCount
  tapes : ∀ tape ∈ configuration.tapes, tape.Sound ∧ tape.blank = machine.blank

end Configuration

namespace Machine

open TapeMachine.Configuration

variable {machine : Machine} {configuration : Configuration}

/-- One step leaves every tape as it is or acts on it once. -/
theorem acted_step (machine : Machine) (configuration : Configuration) :
    List.Forall₂ Acted configuration.tapes (machine.step configuration).2.tapes := by
  cases next : machine.nextAction configuration with
  | ok action =>
      rw [step_of_nextAction next]
      exact acted_actOnTapes configuration.tapes action.writes action.moves
  | error halt =>
      rw [step_of_halt next]
      exact List.forall₂_same.mpr fun tape _ => .inl rfl

/-- One step keeps a configuration sound. -/
theorem sound_step (sound : configuration.Sound machine) :
    (machine.step configuration).2.Sound machine where
  tapeCount := by rw [← (acted_step machine configuration).length_eq, sound.tapeCount]
  tapes tape member := by
    obtain ⟨before, listed, acted⟩ :=
      Checks.exists_mem_of_forall₂ (acted_step machine configuration) member
    obtain ⟨soundBefore, blank⟩ := sound.tapes before listed
    exact ⟨acted.sound soundBefore, acted.blank.trans blank⟩

/-- One step of the engine is one step of the ideal machine. -/
theorem WellFormed.ideal_step (wellFormed : machine.WellFormed)
    (sound : configuration.Sound machine) :
    Ideal.step machine configuration.ideal =
      ((machine.step configuration).1, (machine.step configuration).2.ideal) := by
  have state : configuration.ideal.state = configuration.state := rfl
  by_cases accepting : machine.isAccepting configuration.state
  · have next : machine.nextAction configuration = .error .accepted := by
      rw [nextAction, if_pos accepting]
    rw [Ideal.step, state, if_pos accepting, step_of_halt next]
  · cases found : machine.findRule? configuration.state configuration.symbols with
    | none =>
        have next : machine.nextAction configuration = .error (.rejected
            { state := machine.stateName configuration.state
              symbols := configuration.symbols }) := by
          rw [nextAction, if_neg accepting, found]
        rw [Ideal.step, symbols_ideal, state, if_neg accepting, found, step_of_halt next]
    | some rule =>
        have next : machine.nextAction configuration = .ok rule.action := by
          rw [nextAction, if_neg accepting, found]
        have allowed := wellFormed.allowsRule (mem_rulesOf_of_findRule? found)
        have tapes := ideal_actOnTapes (fun tape member => (sound.tapes tape member).1)
          (allowed.writeCount.trans sound.tapeCount.symm)
          (allowed.moveCount.trans sound.tapeCount.symm)
        rw [Ideal.step, symbols_ideal, state, if_neg accepting, found, step_of_nextAction next]
        simp only [Ideal.Configuration.apply, Configuration.apply, ideal, tapes]

/-- A run of the engine stays sound. -/
theorem sound_after (sound : configuration.Sound machine) (count : Nat) :
    (machine.after count configuration).Sound machine := by
  induction count with
  | zero => exact sound
  | succ count ih => exact sound_step ih

/-- A run of the engine is a run of the ideal machine. -/
theorem WellFormed.ideal_after (wellFormed : machine.WellFormed)
    (sound : configuration.Sound machine) (count : Nat) :
    Ideal.after machine count configuration.ideal = (machine.after count configuration).ideal := by
  induction count with
  | zero => rfl
  | succ count ih =>
      rw [Ideal.after, ih, wellFormed.ideal_step (sound_after sound count), after_succ]

/-- The seeded tapes, one for each position. -/
theorem seed_eq_ok {count : Nat} {contents : List String} {blank : Char}
    (fit : contents.length ≤ count) :
    TapeBank.seed count contents blank = .ok ((List.range count).map fun index =>
      Tape.ofString (contents.getD index "") blank) := by
  rw [TapeBank.seed, if_neg (by omega)]
  congr 1
  apply List.ext_getElem?
  intro index
  by_cases given : index < contents.length
  · have inside : index < count := by omega
    rw [List.getElem?_append_left (by simpa using given)]
    simp [given, inside]
  · rw [List.getElem?_append_right (by simpa using given), List.getElem?_replicate]
    by_cases inside : index < count
    · have later : index - contents.length < count - contents.length := by omega
      simp [later, inside, Tape.ofString, List.getElem?_eq_none (Nat.le_of_not_lt given)]
    · have beyond : ¬ index - contents.length < count - contents.length := by omega
      simp [beyond, inside]

/-- The configuration in which a machine starts on the given contents. -/
def seeded (machine : Machine) (contents : List String) : Configuration where
  state := machine.initial
  steps := 0
  tapes := (List.range machine.tapeCount).map fun index =>
    Tape.ofString (contents.getD index "") machine.blank

/-- A machine starts on contents that are not more than its tapes. -/
theorem start_eq_seeded (machine : Machine) {contents : List String}
    (fit : contents.length ≤ machine.tapeCount) :
    machine.start contents = .ok (machine.seeded contents) := by
  rw [start, seed_eq_ok fit]
  rfl

/-- A machine starts soundly where the ideal machine starts, and each tape reaches as far as its
content, but has one cell at least. -/
theorem start_eq_ok (machine : Machine) {contents : List String}
    (fit : contents.length ≤ machine.tapeCount) :
    ∃ initial, machine.start contents = .ok initial ∧ initial.Sound machine ∧
      initial.ideal = Ideal.start machine contents ∧
      ∀ index tape, initial.tapes[index]? = some tape →
        tape.extent = max 1 (contents.getD index "").length := by
  refine ⟨machine.seeded contents, machine.start_eq_seeded fit, ⟨by simp [seeded], ?_⟩, ?_, ?_⟩
  · intro tape member
    obtain ⟨index, -, rfl⟩ := List.mem_map.mp member
    exact ⟨Tape.sound_ofList _ _, rfl⟩
  · have tapes : (machine.seeded contents).tapes.map Tape.ideal =
        (List.range machine.tapeCount).map fun index =>
          Ideal.Tape.seeded (contents.getD index "").toList machine.blank := by
      rw [seeded, List.map_map]
      exact List.map_congr_left fun index _ => Tape.ideal_ofList _ _
    rw [Configuration.ideal, tapes]
    rfl
  · intro index tape position
    obtain ⟨inside, rfl⟩ : index < machine.tapeCount ∧
        Tape.ofString (contents.getD index "") machine.blank = tape := by
      simpa [seeded, List.getElem?_eq_some_iff] using position
    rw [Tape.ofString, Tape.extent_ofList, String.length_toList, max_comm]

/-- The extent of a tape is as far as it was laid out at first or its head went since. -/
theorem WellFormed.extent_after (wellFormed : machine.WellFormed)
    (sound : configuration.Sound machine) (count : Nat) {index : Nat} {tape : Tape}
    (position : (machine.after count configuration).tapes[index]? = some tape) :
    ∃ initial, configuration.tapes[index]? = some initial ∧
      tape.extent = max initial.extent
        (Ideal.furthest machine configuration.ideal index count + 1) := by
  have headAt {reached : Configuration} {tape : Tape}
      (position : reached.tapes[index]? = some tape) :
      reached.ideal.heads.getD index 0 = tape.head := by
    simp [heads_ideal, heads, TapeBank.heads, position]
  -- The furthest position grows with the head, and the extent grows with both.
  induction count generalizing tape with
  | zero =>
      rw [after_zero] at position
      have inside := (sound.tapes tape (List.mem_of_getElem? position)).1.head
      refine ⟨tape, position, ?_⟩
      rw [Ideal.furthest, headAt position]
      omega
  | succ count ih =>
      have soundBefore := sound_after sound count
      obtain ⟨before, positionBefore, acted⟩ := Checks.exists_getElem?_of_forall₂
        (acted_step machine (machine.after count configuration)) position
      obtain ⟨initial, seeded, extentBefore⟩ := ih positionBefore
      refine ⟨initial, seeded, ?_⟩
      have extent := acted.extent
        (soundBefore.tapes before (List.mem_of_getElem? positionBefore)).1
      rw [Ideal.furthest, wellFormed.ideal_after sound, headAt position]
      omega

/-- The engine refines the ideal machine: however a compiled machine is seeded, after any number of
calls of `step` it is in the state of the ideal machine, with the same step count, heads, symbols
and next result; each tape shows the ideal tape up to the furthest seeded or visited cell, and its
trimmed content is the shortest part of the ideal tape that holds everything but blanks. -/
theorem engine_refines_ideal_machine {document : Document} {machine : Machine}
    (compiled : Machine.ofDocument document = .ok machine) {contents : List String}
    (fit : contents.length ≤ machine.tapeCount) :
    ∃ initial, machine.start contents = .ok initial ∧ ∀ count,
      let engine := machine.after count initial
      let ideal := Ideal.after machine count (Ideal.start machine contents)
      engine.state = ideal.state ∧ engine.steps = ideal.steps ∧ engine.heads = ideal.heads ∧
      engine.symbols = ideal.symbols ∧
      (machine.step engine).1 = (Ideal.step machine ideal).1 ∧
      engine.tapes.length = machine.tapeCount ∧ ideal.tapes.length = machine.tapeCount ∧
      ∀ index tape idealTape, engine.tapes[index]? = some tape →
        ideal.tapes[index]? = some idealTape →
        tape.content false = String.ofList ((List.range (max (max 1 (contents.getD index "").length)
          (1 + Ideal.furthest machine (Ideal.start machine contents) index count))).map
            idealTape.cells) ∧
        ∃ shortest, tape.content true =
            String.ofList ((List.range shortest).map idealTape.cells) ∧
          IsLeast {length | ∀ position, length ≤ position →
            idealTape.cells position = machine.blank} shortest := by
  have wellFormed := wellFormed_of_ofDocument compiled
  obtain ⟨initial, start, sound, seeded, seededExtent⟩ := machine.start_eq_ok fit
  refine ⟨initial, start, fun count => ?_⟩
  have soundAfter := sound_after sound count
  rw [← seeded, wellFormed.ideal_after sound count]
  refine ⟨rfl, rfl, (heads_ideal _).symm, (symbols_ideal _).symm, ?_, soundAfter.tapeCount, ?_, ?_⟩
  · rw [wellFormed.ideal_step soundAfter]
  · rw [Configuration.ideal, List.length_map, soundAfter.tapeCount]
  · intro index tape idealTape position idealPosition
    obtain rfl : tape.ideal = idealTape := by
      simpa [Configuration.ideal, position] using idealPosition
    obtain ⟨soundTape, blank⟩ := soundAfter.tapes tape (List.mem_of_getElem? position)
    obtain ⟨seed, seedPosition, extent⟩ := wellFormed.extent_after sound count position
    rw [seededExtent index seed seedPosition] at extent
    constructor
    · rw [Tape.content_false soundTape, extent, Nat.add_comm 1]
      rfl
    · obtain ⟨shortest, trimmed, least⟩ := Tape.content_true soundTape
      rw [blank] at least
      exact ⟨shortest, trimmed, least⟩

/-- Two steps pass the comment mark and put a quote after it; then the machine accepts, with one
blank laid out behind the quote. -/
theorem engine_refines_ideal_machine_on_awkward :
    Machine.ofDocument .awkward = .ok .awkward ∧ ["# "].length ≤ Machine.awkward.tapeCount ∧
      ∃ initial, Machine.awkward.start ["# "] = .ok initial ∧
        (Machine.awkward.after 2 initial).state = 1 ∧
        (Machine.awkward.after 2 initial).steps = 2 ∧
        (Machine.awkward.after 2 initial).heads = [2] ∧
        (Machine.awkward.after 2 initial).symbols = ['\n'] ∧
        (Machine.awkward.step (Machine.awkward.after 1 initial)).1 = .applied ∧
        (Machine.awkward.step (Machine.awkward.after 2 initial)).1 = .halted .accepted ∧
        ∃ tape, (Machine.awkward.after 2 initial).tapes[0]? = some tape ∧
          tape.content false = "#'\n" ∧ tape.content true = "#'" := by
  have fit : ["# "].length ≤ Machine.awkward.tapeCount := by decide
  obtain ⟨initial, start, agrees⟩ :=
    engine_refines_ideal_machine Document.ofDocument_awkward fit
  obtain ⟨-, -, -, -, applied, -⟩ := agrees 1
  obtain ⟨state, steps, heads, symbols, halted, tapes, -, contents⟩ := agrees 2
  obtain ⟨tape, position⟩ : ∃ tape, (Machine.awkward.after 2 initial).tapes[0]? = some tape :=
    ⟨_, List.getElem?_eq_getElem (by rw [tapes]; decide)⟩
  obtain ⟨untrimmed, shortest, trimmed, least⟩ := contents 0 tape _ position rfl
  have quoted : IsLeast {length | ∀ position, length ≤ position →
      Function.update (['#', ' '].getD · '\n') 1 '\'' position = '\n'} 2 := by
    constructor
    · intro position later
      have behind : ['#', ' '].length ≤ position := later
      rw [Function.update_of_ne (by omega), List.getD_eq_getElem?_getD, List.getElem?_eq_none behind]
      rfl
    · intro length blanks
      by_contra short
      exact absurd (blanks 1 (by omega)) (by decide)
  obtain rfl : shortest = 2 := least.unique quoted
  exact ⟨Document.ofDocument_awkward, fit, initial, start, state.trans rfl, steps.trans rfl,
    heads.trans rfl, symbols.trans rfl, applied.trans rfl, halted.trans rfl, tape, position,
    untrimmed.trans rfl, trimmed.trans rfl⟩

end Machine

end TapeMachine
