import TapeMachine.Proofs.Document.Selection
import TapeMachine.Proofs.Refinement

/-!
# Machines run as their documents read

`Document.StepsTo` reads a step of the ideal machine off the texts of a document: the accepting
states that it lists, and the entry that it has for the state and the symbols read. The compiled
machine is not mentioned. In a declared state there is exactly one such step, the one that the ideal
machine takes (`stepsTo_iff`). So from every start the ideal machine takes only such steps
(`ideal_follows_document`), and so does the engine (`engine_follows_document`).
-/

namespace TapeMachine

namespace Document

/-- One step as a document reads it, in a declared state: accept where the state is accepting, apply
what the selected entry denotes, reject where there is none. -/
inductive StepsTo (document : Document) (configuration : Ideal.Configuration) :
    Step × Ideal.Configuration → Prop where
  | accept {name : String} (declared : document.states[configuration.state]? = some name)
      (accepting : name ∈ document.acceptingStates) :
      StepsTo document configuration (.halted .accepted, configuration)
  | apply {name : String} {entry : String × ActionRecord} {rule : Rule}
      (declared : document.states[configuration.state]? = some name)
      (running : name ∉ document.acceptingStates)
      (selected : document.ruleFor? name configuration.symbols = some entry)
      (denotes : document.Denotes entry rule) :
      StepsTo document configuration (.applied, configuration.apply rule.action)
  | reject {name : String} (declared : document.states[configuration.state]? = some name)
      (running : name ∉ document.acceptingStates)
      (unmatched : document.ruleFor? name configuration.symbols = none) :
      StepsTo document configuration
        (.halted (.rejected { state := name, symbols := configuration.symbols }), configuration)

variable {document : Document} {configuration : Ideal.Configuration}

/-- Where no state is declared twice, an entry denotes one action at most. -/
theorem Denotes.action_eq {entry : String × ActionRecord} {rule other : Rule}
    (distinct : document.states.Nodup) (denotes : document.Denotes entry rule)
    (others : document.Denotes entry other) : rule.action = other.action := by
  obtain ⟨writes, moves⟩ := denotes.effect_eq rfl others
  obtain ⟨inside, -⟩ := List.getElem?_eq_some_iff.mp denotes.next
  have next : rule.action.next = other.action.next :=
    (List.getElem?_inj inside distinct).mp (denotes.next.trans others.next.symm)
  calc rule.action
      = ⟨rule.action.writes, rule.action.moves, rule.action.next⟩ := rfl
    _ = ⟨other.action.writes, other.action.moves, other.action.next⟩ := by rw [writes, moves, next]
    _ = other.action := rfl

/-- A step leads to a declared state. -/
theorem StepsTo.declared_next {reached : Step × Ideal.Configuration}
    (steps : document.StepsTo configuration reached) :
    ∃ name, document.states[reached.2.state]? = some name := by
  cases steps with
  | accept declared => exact ⟨_, declared⟩
  | apply _ _ _ denotes => exact ⟨_, denotes.next⟩
  | reject declared => exact ⟨_, declared⟩

end Document

namespace Machine

variable {document : Document} {machine : Machine}

/-- In a declared state the ideal machine steps as the document reads. -/
theorem stepsTo_ideal_step (accepted : Machine.ofDocument document = .ok machine)
    {configuration : Ideal.Configuration} {name : String}
    (declared : document.states[configuration.state]? = some name) :
    document.StepsTo configuration (Ideal.step machine configuration) := by
  obtain ⟨named, accepting⟩ := state_of_ofDocument accepted declared
  have selects := rel_ruleFor? accepted declared configuration.symbols
  rw [Ideal.step]
  by_cases halts : machine.isAccepting configuration.state
  · rw [if_pos halts]
    exact .accept declared (accepting.mp halts)
  · rw [if_neg halts]
    have running := mt accepting.mpr halts
    generalize found : machine.findRule? configuration.state configuration.symbols = rule? at selects
    generalize selected : document.ruleFor? name configuration.symbols = entry? at selects
    -- The machine finds a rule exactly where the document has an entry.
    cases selects with
    | some denotes => exact .apply declared running selected denotes
    | none =>
        rw [named]
        exact .reject declared running selected

/-- In a declared state a document reads no other step than that of the ideal machine. -/
theorem stepsTo_iff (accepted : Machine.ofDocument document = .ok machine)
    {configuration : Ideal.Configuration} {name : String}
    (declared : document.states[configuration.state]? = some name)
    {reached : Step × Ideal.Configuration} :
    document.StepsTo configuration reached ↔ reached = Ideal.step machine configuration := by
  refine ⟨fun steps => ?_, fun same => same ▸ stepsTo_ideal_step accepted declared⟩
  have distinct : document.states.Nodup := ((spelled_of_ofDocument accepted).properHeading
    (wellFormed_of_ofDocument accepted).proper).distinctStates
  cases steps with
  | accept declared accepting =>
      rw [Ideal.step, if_pos ((state_of_ofDocument accepted declared).2.mpr accepting)]
  | apply declared running selected denotes =>
      have selects := rel_ruleFor? accepted declared configuration.symbols
      rw [Ideal.step, if_neg (mt (state_of_ofDocument accepted declared).2.mp running)]
      rw [selected] at selects
      generalize machine.findRule? configuration.state configuration.symbols = rule? at selects
      cases selects with
      | some others => simp only [denotes.action_eq distinct others]
  | reject declared running unmatched =>
      obtain ⟨named, accepting⟩ := state_of_ofDocument accepted declared
      have selects := rel_ruleFor? accepted declared configuration.symbols
      rw [Ideal.step, if_neg (mt accepting.mp running), named]
      rw [unmatched] at selects
      generalize machine.findRule? configuration.state configuration.symbols = rule? at selects
      cases selects with
      | none => rfl

/-- From every start the ideal machine steps as the document reads. -/
theorem ideal_follows_document (accepted : Machine.ofDocument document = .ok machine)
    (contents : List String) (count : Nat) :
    document.StepsTo (Ideal.after machine count (Ideal.start machine contents))
      (Ideal.step machine (Ideal.after machine count (Ideal.start machine contents))) := by
  induction count with
  | zero => exact stepsTo_ideal_step accepted (start_of_ofDocument accepted).1
  | succ count ih =>
      obtain ⟨name, declared⟩ := ih.declared_next
      exact stepsTo_ideal_step accepted declared

/-- From every start the engine steps as the document reads, whatever tapes it has laid out. -/
theorem engine_follows_document (accepted : Machine.ofDocument document = .ok machine)
    {contents : List String} (fit : contents.length ≤ machine.tapeCount) :
    ∃ initial, machine.start contents = .ok initial ∧ ∀ count,
      document.StepsTo (machine.after count initial).ideal
        ((machine.step (machine.after count initial)).1,
          (machine.after (count + 1) initial).ideal) := by
  have wellFormed := wellFormed_of_ofDocument accepted
  obtain ⟨initial, start, sound, seeded, -⟩ := machine.start_eq_ok fit
  refine ⟨initial, start, fun count => ?_⟩
  have follows := ideal_follows_document accepted contents count
  rw [← seeded, wellFormed.ideal_after sound, wellFormed.ideal_step (sound_after sound count)]
    at follows
  exact follows

end Machine

end TapeMachine
