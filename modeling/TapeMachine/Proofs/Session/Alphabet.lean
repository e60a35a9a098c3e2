import TapeMachine.Proofs.Session.Operations

/-!
# The symbols on the tapes of a session

`Tape.Over` says that every cell that is laid out holds a symbol of a set. Compiled machines write
tape symbols only and lay out blanks, so a step keeps each tape over the tape symbols and whatever its
content brought along. `Session.lastSeeded` follows the contents through the operations of a session:
replacing the content of a tape and going back to the beginning are the only ways in which other
symbols come and go.
-/

namespace TapeMachine

/-! ## Tapes -/

namespace Tape

/-- All cells that are laid out hold symbols of the set, and so do those that will be. -/
structure Over (symbols : Set Char) (tape : Tape) : Prop where
  blank : tape.blank ∈ symbols
  cells : ∀ symbol ∈ tape.cells, symbol ∈ symbols

variable {symbols : Set Char} {tape : Tape}

/-- A tape over some symbols is a tape over more of them. -/
theorem Over.mono {others : Set Char} (held : tape.Over symbols) (inside : symbols ⊆ others) :
    tape.Over others where
  blank := inside held.blank
  cells symbol member := inside (held.cells symbol member)

/-- A seeded tape is over its content and its blank. -/
theorem over_ofList {content : List Char} {blank : Char} (blankInside : blank ∈ symbols)
    (inside : ∀ symbol ∈ content, symbol ∈ symbols) : (ofList content blank).Over symbols where
  blank := blankInside
  cells symbol member := by
    rw [ofList, Array.mem_append, List.mem_toArray] at member
    rcases member with seeded | blank
    · exact inside symbol seeded
    · rw [(Array.mem_replicate.mp blank).2]
      exact blankInside

/-- Writing one of the symbols adds no other. -/
theorem Over.write (held : tape.Over symbols) {symbol : Char} (inside : symbol ∈ symbols) :
    (tape.write symbol).Over symbols where
  blank := held.blank
  cells found member := by
    obtain ⟨position, cell⟩ := Array.mem_iff_getElem?.mp member
    rw [Tape.write, Array.getElem?_setIfInBounds] at cell
    split at cell
    · obtain ⟨-, rfl⟩ : tape.head < tape.cells.size ∧ symbol = found := by simpa using cell
      exact inside
    · exact held.cells found (Array.mem_of_getElem? cell)

/-- Moving the head lays out blanks only. -/
theorem Over.shift (held : tape.Over symbols) (direction : Direction) :
    (tape.shift direction).Over symbols where
  blank := held.blank
  cells found member := by
    simp only [Tape.shift, grow] at member
    split at member
    · exact held.cells found member
    · rcases Array.mem_append.mp member with before | blank
      · exact held.cells found before
      · rw [(Array.mem_replicate.mp blank).2]
        exact held.blank

theorem Over.read_mem (held : tape.Over symbols) : tape.read ∈ symbols := by
  rw [read, Array.getD_eq_getD_getElem?]
  cases cell : tape.cells[tape.head]? with
  | none => exact held.blank
  | some symbol => exact held.cells symbol (Array.mem_of_getElem? cell)

end Tape

/-! ## Configurations -/

namespace Configuration

/-- Each tape holds symbols of the set that belongs to its position. -/
def Over (symbols : Nat → Set Char) (configuration : Configuration) : Prop :=
  ∀ (index : Nat) (tape : Tape), configuration.tapes[index]? = some tape →
    tape.Over (symbols index)

/-- What an action leaves on a tape is what was there, acted on by one of its writes at most. -/
theorem exists_of_getElem?_actOnTapes {tapes : TapeBank} {writes : List Write}
    {moves : List Direction} {index : Nat} {tape : Tape}
    (position : (actOnTapes tapes writes moves)[index]? = some tape) :
    ∃ before, tapes[index]? = some before ∧
      (tape = before ∨ ∃ write ∈ writes, ∃ direction, tape = actOnTape before write direction) := by
  fun_induction actOnTapes tapes writes moves generalizing index with
  | case1 first tapes write writes direction moves ih =>
      cases index with
      | zero =>
          obtain rfl : actOnTape first write direction = tape := by simpa using position
          exact ⟨first, rfl, .inr ⟨write, List.mem_cons_self, direction, rfl⟩⟩
      | succ index =>
          obtain ⟨before, found, same | ⟨write, listed, acted⟩⟩ := ih (by simpa using position)
          · exact ⟨before, by simpa using found, .inl same⟩
          · exact ⟨before, by simpa using found, .inr ⟨write, List.mem_cons_of_mem _ listed, acted⟩⟩
  | case2 => exact ⟨tape, position, .inl rfl⟩

/-- An action keeps every tape over a set that holds all symbols it writes. -/
theorem Over.apply {symbols : Nat → Set Char} {configuration : Configuration}
    (held : configuration.Over symbols) {action : Action}
    (written : ∀ index symbol, .put symbol ∈ action.writes → symbol ∈ symbols index) :
    (configuration.apply action).Over symbols := by
  intro index tape position
  obtain ⟨before, found, rfl | ⟨write, listed, direction, rfl⟩⟩ :=
    exists_of_getElem?_actOnTapes position
  · exact held index tape found
  · have heldBefore := held index before found
    cases write with
    | keep => exact heldBefore.shift direction
    | put symbol => exact (heldBefore.write (written index symbol listed)).shift direction

/-- With one set for all tapes, the symbols read belong to it. -/
theorem Over.symbols_mem {symbols : Set Char} {configuration : Configuration}
    (held : configuration.Over fun _ => symbols) :
    ∀ symbol ∈ configuration.symbols, symbol ∈ symbols := by
  intro symbol read
  obtain ⟨tape, member, rfl⟩ := List.mem_map.mp read
  obtain ⟨index, position⟩ := List.mem_iff_getElem?.mp member
  exact (held index tape position).read_mem

end Configuration

namespace Machine

variable {machine : Machine} {configuration : Configuration} {symbols : Nat → Set Char}

/-- Whatever a compiled machine writes is a tape symbol. -/
theorem WellFormed.mem_tapeAlphabet_of_put (wellFormed : machine.WellFormed) {action : Action}
    (next : machine.nextAction configuration = .ok action) {symbol : Char}
    (written : .put symbol ∈ action.writes) : symbol ∈ machine.tapeAlphabet := by
  obtain ⟨rule, applied, rfl⟩ := nextAction_eq_ok.mp next
  have listed := mem_rulesOf_of_findRule? (findRule?_of_appliedRule? applied)
  exact (wellFormed.allowsRule listed).writes _ written

section Kept

variable (wellFormed : machine.WellFormed)
  (alphabet : ∀ index, ∀ symbol ∈ machine.tapeAlphabet, symbol ∈ symbols index)
  (held : configuration.Over symbols)

include wellFormed alphabet held

/-- A step keeps the tapes over sets that hold the tape symbols. -/
theorem WellFormed.over_step : (machine.step configuration).2.Over symbols := by
  cases next : machine.nextAction configuration with
  | ok action =>
      rw [step_of_nextAction next]
      exact held.apply fun index symbol written =>
        alphabet index symbol (wellFormed.mem_tapeAlphabet_of_put next written)
  | error halt =>
      rw [step_of_halt next]
      exact held

/-- Steps write no symbol that is not there or in the tape alphabet. -/
theorem WellFormed.over_after (count : Nat) : (machine.after count configuration).Over symbols := by
  induction count with
  | zero => exact held
  | succ count ih => exact wellFormed.over_step alphabet ih

/-- Runs write no symbol that is not there or in the tape alphabet. -/
theorem WellFormed.over_run (config : RunConfig) :
    (machine.run config configuration).configuration.Over symbols := by
  obtain ⟨applied, reached, -⟩ := run_ends_on_trajectory machine config configuration
  rw [reached]
  exact wellFormed.over_after alphabet held applied

end Kept

/-- The tape symbols of a machine and the symbols of a content. -/
def symbolsWith (machine : Machine) (content : String) : Set Char :=
  {symbol | symbol ∈ machine.tapeAlphabet ∨ symbol ∈ content.toList}

theorem WellFormed.over_ofString (wellFormed : machine.WellFormed) (content : String) :
    (Tape.ofString content machine.blank).Over (machine.symbolsWith content) :=
  Tape.over_ofList (.inl wellFormed.proper.blank) fun _ seeded => .inr seeded

theorem WellFormed.over_seeded (wellFormed : machine.WellFormed) (contents : List String) :
    (machine.seeded contents).Over fun index =>
      machine.symbolsWith (contents.getD index "") := by
  intro index tape position
  obtain ⟨-, rfl⟩ : index < machine.tapeCount ∧
      Tape.ofString (contents.getD index "") machine.blank = tape := by
    simpa [seeded, List.getElem?_eq_some_iff] using position
  exact wellFormed.over_ofString _

/-- Tape symbols are not reserved. -/
theorem WellFormed.unreserved (wellFormed : machine.WellFormed) {symbol : Char}
    (inside : symbol ∈ machine.tapeAlphabet) :
    symbol ≠ machine.wildcard ∧ symbol ≠ machine.unchanged ∧ symbol ≠ ',' := by
  refine ⟨?_, ?_, ?_⟩
  · rintro rfl
    exact wellFormed.proper.wildcard inside
  · rintro rfl
    exact wellFormed.proper.unchanged inside
  · rintro rfl
    exact wellFormed.proper.separator inside

end Machine

/-! ## Sessions -/

namespace Session

/-- The content last seeded into each tape after an operation, if `initial` was seeded at the
beginning and `seeds` last. -/
def Operation.reseed (initial seeds : Nat → String) : Operation → Nat → String
  | .reset => initial
  | .setTapeContent index content => Function.update seeds index content
  | .step | .run _ | .look => seeds

/-- The content last seeded into each tape of a session that began with the given contents. -/
def lastSeeded (contents : List String) (operations : List Operation) : Nat → String :=
  operations.foldl (fun seeds operation => operation.reseed (contents.getD · "") seeds)
    (contents.getD · "")

/-- The last operation decides which content a tape was seeded with last. -/
theorem lastSeeded_append_singleton (contents : List String) (operations : List Operation)
    (operation : Operation) :
    lastSeeded contents (operations ++ [operation]) =
      operation.reseed (contents.getD · "") (lastSeeded contents operations) := by
  rw [lastSeeded, List.foldl_append]
  rfl

variable {session : Session} {initial seeds : Nat → String}

theorem performAll_append_singleton (operations : List Operation) (operation : Operation) :
    session.performAll (operations ++ [operation]) =
      (session.performAll operations).perform operation :=
  performAll_append operations [operation]

/-- Replacing a content replaces that tape, if there is one. -/
theorem getElem?_setTapeContent (session : Session) (index : Nat) (content : String)
    (other : Nat) :
    (session.perform (.setTapeContent index content)).current.tapes[other]? =
      if index = other then
        session.current.tapes[other]?.map fun _ => Tape.ofString content session.machine.blank
      else session.current.tapes[other]? := by
  by_cases inside : index < session.current.tapes.length
  · simp only [perform, setTapeContent_of_lt inside, List.getElem?_modify, Option.map_eq_map]
    split
    · rfl
    · exact Option.map_id'
  · simp only [perform, setTapeContent_of_le (Nat.le_of_not_lt inside)]
    split
    · next here =>
        rw [← here, List.getElem?_eq_none (Nat.le_of_not_lt inside), Option.map_none]
    · rfl

/-- An operation leaves nothing on a tape but tape symbols and what the content last seeded
brought. -/
theorem over_perform (wellFormed : session.machine.WellFormed)
    (begun : session.initial.Over fun index => session.machine.symbolsWith (initial index))
    (held : session.current.Over fun index => session.machine.symbolsWith (seeds index))
    (operation : Operation) :
    (session.perform operation).current.Over fun index =>
      session.machine.symbolsWith (operation.reseed initial seeds index) := by
  have alphabet (index : Nat) : ∀ symbol ∈ session.machine.tapeAlphabet,
      symbol ∈ session.machine.symbolsWith (seeds index) := fun _ => .inl
  cases operation with
  | step => exact wellFormed.over_step alphabet held
  | run config => exact wellFormed.over_run alphabet held config
  | reset => exact begun
  | look => exact held
  | setTapeContent index content =>
      intro other tape position
      rw [getElem?_setTapeContent] at position
      simp only [Operation.reseed]
      split at position
      · next here =>
          obtain ⟨-, -, rfl⟩ := Option.map_eq_some_iff.mp position
          rw [here, Function.update_self]
          exact wellFormed.over_ofString content
      · next apart =>
          rw [Function.update_of_ne (Ne.symm apart)]
          exact held other tape position

/-- After any operations, each tape is over the tape alphabet and the content that it was seeded
with last. -/
theorem over_performAll {contents : List String} (wellFormed : session.machine.WellFormed)
    (begun : session.initial.Over fun index =>
      session.machine.symbolsWith (contents.getD index ""))
    (fresh : session.current = session.initial) (operations : List Operation) :
    (session.performAll operations).current.Over fun index =>
      session.machine.symbolsWith (lastSeeded contents operations index) := by
  induction operations using List.reverseRecOn with
  | nil =>
      rw [← fresh] at begun
      exact begun
  | append_singleton operations operation ih =>
      obtain ⟨machine, first⟩ := session.performAll_keeps operations
      rw [performAll_append_singleton, lastSeeded_append_singleton, ← machine]
      rw [← machine] at wellFormed begun ih
      rw [← first] at begun
      exact over_perform wellFormed begun ih operation

/-- The operation seeds no tape of the machine with anything but tape symbols. -/
def Operation.SeedsTapeSymbols (machine : Machine) : Operation → Prop
  | .setTapeContent index content =>
    index < machine.tapeCount → ∀ symbol ∈ content.toList, symbol ∈ machine.tapeAlphabet
  | .step | .run _ | .reset | .look => True

/-- If only tape symbols are ever seeded, the contents last seeded consist of them. -/
theorem lastSeeded_mem {machine : Machine} {contents : List String}
    (seeded : ∀ content ∈ contents, ∀ symbol ∈ content.toList, symbol ∈ machine.tapeAlphabet)
    {operations : List Operation}
    (reseeded : ∀ operation ∈ operations, operation.SeedsTapeSymbols machine) {index : Nat}
    (inside : index < machine.tapeCount) :
    ∀ symbol ∈ (lastSeeded contents operations index).toList, symbol ∈ machine.tapeAlphabet := by
  have begun : ∀ symbol ∈ (contents.getD index "").toList, symbol ∈ machine.tapeAlphabet := by
    rw [List.getD_eq_getElem?_getD]
    cases given : contents[index]? with
    | none => simp
    | some content => exact seeded content (List.mem_of_getElem? given)
  induction operations using List.reverseRecOn with
  | nil => exact begun
  | append_singleton operations operation ih =>
      have before := ih fun earlier listed => reseeded earlier (List.mem_append_left _ listed)
      have last := reseeded operation (by simp)
      rw [lastSeeded_append_singleton]
      cases operation with
      | step => exact before
      | run config => exact before
      | look => exact before
      | reset => exact begun
      | setTapeContent other content =>
          by_cases here : index = other
          · subst here
            rw [Operation.reseed, Function.update_self]
            exact last inside
          · rw [Operation.reseed, Function.update_of_ne here]
            exact before

/-- Whatever is done with a session of a compiled machine, every cell that is laid out holds a tape
symbol or a symbol of the content last seeded into its tape, at the beginning, by a replacement or by
a reset. If only tape symbols are seeded, there is nothing else on the tapes, in particular none of
the reserved characters, and the symbols that are read there and ever after are tape symbols. -/
theorem tapes_hold_tape_symbols_and_seeds {document : Document} {machine : Machine}
    (compiled : Machine.ofDocument document = .ok machine) {contents : List String}
    (fit : contents.length ≤ machine.tapeCount) :
    ∃ session, Session.start machine contents = .ok session ∧ ∀ operations : List Operation,
      let reached := session.performAll operations
      (∀ index tape, reached.current.tapes[index]? = some tape → ∀ symbol ∈ tape.cells,
        symbol ∈ machine.tapeAlphabet ∨ symbol ∈ (lastSeeded contents operations index).toList) ∧
      ((∀ content ∈ contents, ∀ symbol ∈ content.toList, symbol ∈ machine.tapeAlphabet) →
        (∀ operation ∈ operations, operation.SeedsTapeSymbols machine) →
        (∀ tape ∈ reached.current.tapes, ∀ symbol ∈ tape.cells, symbol ∈ machine.tapeAlphabet ∧
          symbol ≠ machine.wildcard ∧ symbol ≠ machine.unchanged ∧ symbol ≠ ',') ∧
        ∀ count, ∀ symbol ∈ (machine.after count reached.current).symbols,
          symbol ∈ machine.tapeAlphabet) := by
  have wellFormed := Machine.wellFormed_of_ofDocument compiled
  let session : Session :=
    { machine, initial := machine.seeded contents, current := machine.seeded contents }
  refine ⟨session, by rw [Session.start, machine.start_eq_seeded fit]; rfl, ?_⟩
  intro operations reached
  have held : reached.current.Over fun index =>
      machine.symbolsWith (lastSeeded contents operations index) :=
    @over_performAll session contents wellFormed (wellFormed.over_seeded contents) rfl operations
  have inRange : reached.current.InRange machine := by
    obtain ⟨first, start, firstInRange⟩ := wellFormed.inRange_start fit
    obtain rfl : machine.seeded contents = first :=
      Except.ok.inj ((machine.start_eq_seeded fit).symm.trans start)
    exact @inRange_performAll session wellFormed firstInRange firstInRange operations
  refine ⟨fun index tape position => (held index tape position).cells, ?_⟩
  intro seeded reseeded
  have alphabet : reached.current.Over fun _ => {symbol | symbol ∈ machine.tapeAlphabet} := by
    intro index tape position
    refine (held index tape position).mono fun symbol inside => inside.elim id ?_
    refine lastSeeded_mem seeded reseeded ?_ symbol
    rw [← inRange.tapeCount]
    exact (List.getElem?_eq_some_iff.mp position).1
  refine ⟨fun tape member symbol cell => ?_, fun count symbol read => ?_⟩
  · obtain ⟨index, position⟩ := List.mem_iff_getElem?.mp member
    have inside := (alphabet index tape position).cells symbol cell
    exact ⟨inside, wellFormed.unreserved inside⟩
  · exact (wellFormed.over_after (fun _ _ => id) alphabet count).symbols_mem symbol read

/-- A foreign symbol that was seeded may stay on its tape; operations that seed tape symbols only
leave nothing else there. -/
theorem crowded_tapes_hold_tape_symbols_and_seeds :
    let foreign : List Operation := [.step, .setTapeContent 1 "x", .run { maxSteps := 9 }]
    let native : List Operation := [.setTapeContent 1 "a_", .run { maxSteps := 9 }, .reset, .step]
    Machine.ofDocument .crowded = .ok .crowded ∧ ["a"].length ≤ Machine.crowded.tapeCount ∧
      (∀ content ∈ ["a"], ∀ symbol ∈ content.toList, symbol ∈ Machine.crowded.tapeAlphabet) ∧
      (∀ operation ∈ native, operation.SeedsTapeSymbols .crowded) ∧
      lastSeeded ["a"] foreign 1 = "x" ∧
      ∃ session, Session.start .crowded ["a"] = .ok session ∧
        (∀ tape, (session.performAll foreign).current.tapes[1]? = some tape →
          ∀ symbol ∈ tape.cells, symbol ∈ ['a', '_'] ∨ symbol ∈ "x".toList) ∧
        ∀ tape ∈ (session.performAll native).current.tapes, ∀ symbol ∈ tape.cells,
          symbol ∈ ['a', '_'] := by
  intro foreign native
  have fit : ["a"].length ≤ Machine.crowded.tapeCount := by decide
  have seeded : ∀ content ∈ ["a"], ∀ symbol ∈ content.toList,
      symbol ∈ Machine.crowded.tapeAlphabet := by
    simp [Machine.crowded]
  have reseeded : ∀ operation ∈ native, operation.SeedsTapeSymbols .crowded := by
    simp [native, Operation.SeedsTapeSymbols, Machine.crowded]
  have last : lastSeeded ["a"] foreign 1 = "x" := rfl
  obtain ⟨session, start, holds⟩ :=
    tapes_hold_tape_symbols_and_seeds Document.ofDocument_crowded fit
  refine ⟨Document.ofDocument_crowded, fit, seeded, reseeded, last, session, start, ?_, ?_⟩
  · intro tape position symbol cell
    rw [← last]
    exact (holds foreign).1 1 tape position symbol cell
  · intro tape member symbol cell
    exact (((holds native).2 seeded reseeded).1 tape member symbol cell).1

end Session

end TapeMachine
