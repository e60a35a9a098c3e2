import TapeMachine.Proofs.Lint.Shadowing
import TapeMachine.Proofs.Session.Alphabet

/-!
# Previews of the next step

`Session.rule?` shows the rule for the current state and symbols. It does not ask whether the state
accepts, while a step does, so the rule shown is the one that the next step applies except where an
accepting state has a rule for the symbols read (`Session.previewsStep_iff`). `Machine.Entered` are
the states that a session can be brought into. Contents can be replaced at any time, so a session
can be made to read whatever selects a rule (`Session.exists_operations_reading`), and previews are
right in all sessions exactly if no accepting state among the entered ones has rules.
-/

namespace TapeMachine

namespace Machine

/-- The states that a session can be brought into: the initial one, and those that a rule leads to
that is found for some symbols in such a state, unless the state accepts. -/
inductive Entered (machine : Machine) : Nat → Prop where
  | initial : Entered machine machine.initial
  | next {state : Nat} {symbols : List Char} {rule : Rule} (before : Entered machine state)
      (running : machine.isAccepting state = false)
      (found : machine.findRule? state symbols = some rule) : Entered machine rule.action.next

variable {machine : Machine} {configuration : Configuration} {state : Nat} {rule : Rule}
  {symbols : List Char}

/-- A rule is found only where as many symbols are read as there are tapes. -/
theorem WellFormed.length_of_findRule? (wellFormed : machine.WellFormed)
    (found : machine.findRule? state symbols = some rule) : symbols.length = machine.tapeCount := by
  have components := (wellFormed.allowsRule (mem_rulesOf_of_findRule? found)).components
  rw [findRule?_eq_or, Option.or_eq_some_iff, wellFormed.exactRule?_eq_find?] at found
  rcases found with exact | ⟨-, first⟩
  · have spelled := List.find?_some exact
    rw [beq_iff_eq] at spelled
    rw [spelled, List.length_map] at components
    exact components
  · have accepted : rule.pattern.accepts symbols := by simpa using List.find?_some first
    rw [← (Pattern.accepts_iff.mp accepted).length_eq]
    exact components

/-- Every call of `step` stays among the entered states. -/
theorem entered_step (entered : machine.Entered configuration.state) :
    machine.Entered (machine.step configuration).2.state := by
  cases next : machine.nextAction configuration with
  | error halt =>
      rw [step_of_halt next]
      exact entered
  | ok action =>
      rw [step_of_nextAction next]
      obtain ⟨rule, applied, rfl⟩ := nextAction_eq_ok.mp next
      have found := findRule?_of_appliedRule? applied
      refine entered.next ?_ found
      by_contra accepting
      rw [Bool.not_eq_false] at accepting
      simp [appliedRule?, accepting] at applied

/-- Steps enter states that rules lead to. -/
theorem entered_after (entered : machine.Entered configuration.state) (count : Nat) :
    machine.Entered (machine.after count configuration).state := by
  induction count with
  | zero => exact entered
  | succ count ih => exact entered_step ih

theorem entered_run (entered : machine.Entered configuration.state) (config : RunConfig) :
    machine.Entered (machine.run config configuration).configuration.state := by
  obtain ⟨applied, reached, -⟩ := run_ends_on_trajectory machine config configuration
  rw [reached]
  exact entered_after entered applied

end Machine

namespace Session

variable {session : Session}

/-! ## One session -/

/-- A rule is shown exactly if the next step applies a rule, and then that step carries out the
action of the rule shown. -/
structure PreviewsStep (session : Session) : Prop where
  shown : session.rule?.isSome ↔ session.step.1 = .applied
  carriedOut : ∀ rule, session.rule? = some rule → session.step.1 = .applied →
    session.step.2 = { session with current := session.current.apply rule.action }

/-- A session in an accepting state stays as it is, whatever rule is shown. -/
theorem step_of_accepting (accepting : session.machine.isAccepting session.current.state) :
    session.step = (.halted .accepted, session) := by
  have next : session.machine.nextAction session.current = .error .accepted := by
    simp [Machine.nextAction, accepting]
  rw [step, Machine.step_of_halt next]

/-- A step applies the rule that applies. -/
theorem step_of_appliedRule? {rule : Rule}
    (applied : session.machine.appliedRule? session.current = some rule) :
    session.step =
      (.applied, { session with current := session.current.apply rule.action }) := by
  rw [step, Machine.step_of_nextAction (Machine.nextAction_eq_ok.mpr ⟨rule, applied, rfl⟩)]

/-- A step applies nothing where no rule applies. -/
theorem step_of_appliedRule?_eq_none
    (unapplied : session.machine.appliedRule? session.current = none) :
    session.step.1 ≠ .applied := by
  cases next : session.machine.nextAction session.current with
  | ok action =>
      obtain ⟨rule, applied, -⟩ := Machine.nextAction_eq_ok.mp next
      rw [unapplied] at applied
      cases applied
  | error halt => simp [step, Machine.step_of_halt next]

/-- A preview is right exactly if no accepting state makes the step stop before the rule shown. -/
theorem previewsStep_iff : session.PreviewsStep ↔
    (session.machine.isAccepting session.current.state → session.rule? = none) := by
  constructor
  · intro previews accepting
    have halted := previews.shown
    rw [step_of_accepting accepting] at halted
    simpa using halted
  · intro hidden
    have same : session.machine.appliedRule? session.current = session.rule? := by
      rw [Machine.appliedRule?]
      split
      · next accepting => exact (hidden accepting).symm
      · rfl
    cases shown : session.rule? with
    | none =>
        have stopped := step_of_appliedRule?_eq_none (same.trans shown)
        exact ⟨by simp [shown, stopped], by simp [shown]⟩
    | some rule =>
        have stepped := step_of_appliedRule? (same.trans shown)
        refine ⟨by simp [shown, stepped], fun other found _ => ?_⟩
        obtain rfl : rule = other := Option.some.inj (shown.symm.trans found)
        rw [stepped]

/-- A preview is wrong if a rule is shown and the step stops. -/
theorem not_previewsStep {rule : Rule} {halt : Halt} (shown : session.rule? = some rule)
    (stopped : session.step.1 = .halted halt) : ¬ session.PreviewsStep := by
  intro previews
  have applied := previews.shown.mp (by rw [shown]; rfl)
  rw [stopped] at applied
  cases applied

/-! ## States that are entered -/

/-- Operations enter states that rules lead to, or the initial one. -/
theorem entered_perform (begun : session.machine.Entered session.initial.state)
    (entered : session.machine.Entered session.current.state) (operation : Operation) :
    session.machine.Entered (session.perform operation).current.state := by
  cases operation with
  | step => exact Machine.entered_step entered
  | run config => exact Machine.entered_run entered config
  | reset => exact begun
  | look => exact entered
  | setTapeContent index content =>
      by_cases inside : index < session.current.tapes.length
      · simpa only [perform, setTapeContent_of_lt inside] using entered
      · simpa only [perform, setTapeContent_of_le (Nat.le_of_not_lt inside)] using entered

/-- No operation leads out of the entered states. -/
theorem entered_performAll (begun : session.machine.Entered session.initial.state)
    (fresh : session.current = session.initial) (operations : List Operation) :
    session.machine.Entered (session.performAll operations).current.state := by
  induction operations using List.reverseRecOn with
  | nil =>
      rw [← fresh] at begun
      exact begun
  | append_singleton operations operation ih =>
      obtain ⟨machine, first⟩ := session.performAll_keeps operations
      rw [performAll_append_singleton, ← machine]
      rw [← machine] at begun ih
      rw [← first] at begun
      exact entered_perform begun ih operation

/-- Replacing a content within the tapes enters no state and keeps their number. -/
theorem perform_setTapeContent_keeps (session : Session) (index : Nat) (content : String) :
    (session.perform (.setTapeContent index content)).current.state = session.current.state ∧
      (session.perform (.setTapeContent index content)).current.tapes.length =
        session.current.tapes.length := by
  by_cases inside : index < session.current.tapes.length
  · simp [perform, setTapeContent_of_lt inside]
  · simp [perform, setTapeContent_of_le (Nat.le_of_not_lt inside)]

/-- By replacing contents, a session can be made to read any symbols on its first tapes. -/
theorem exists_operations_showing (session : Session) {symbols : List Char}
    (fit : symbols.length = session.current.tapes.length) {count : Nat}
    (within : count ≤ symbols.length) :
    ∃ operations, (session.performAll operations).current.state = session.current.state ∧
      (session.performAll operations).current.tapes.length = symbols.length ∧
      ∀ index < count,
        (session.performAll operations).current.tapes[index]?.map Tape.read =
          symbols[index]? := by
  induction count with
  | zero => exact ⟨[], rfl, fit.symm, by simp⟩
  | succ count ih =>
      obtain ⟨operations, state, length, shown⟩ := ih (by omega)
      have keeps := (session.performAll operations).perform_setTapeContent_keeps count
        (String.ofList [symbols[count]])
      refine ⟨operations ++ [.setTapeContent count (String.ofList [symbols[count]])], ?_⟩
      rw [performAll_append_singleton]
      refine ⟨keeps.1.trans state, keeps.2.trans length, fun index inside => ?_⟩
      rw [getElem?_setTapeContent]
      rcases Nat.lt_succ_iff_lt_or_eq.mp inside with earlier | rfl
      · rw [if_neg (by omega)]
        exact shown index earlier
      · rw [if_pos rfl, List.getElem?_eq_getElem (by omega : index < List.length _),
          Option.map_some, Option.map_some, Tape.read_ofString, String.toList_ofList,
          List.getElem?_eq_getElem]
        rfl

/-- By replacing contents, a session can be made to read any symbols, one for each tape. -/
theorem exists_operations_reading (session : Session) {symbols : List Char}
    (fit : symbols.length = session.current.tapes.length) :
    ∃ operations, (session.performAll operations).current.state = session.current.state ∧
      (session.performAll operations).current.symbols = symbols := by
  obtain ⟨operations, state, length, shown⟩ :=
    session.exists_operations_showing fit (Nat.le_refl symbols.length)
  refine ⟨operations, state, List.ext_getElem? fun index => ?_⟩
  rw [Configuration.symbols, TapeBank.read, List.getElem?_map]
  by_cases inside : index < symbols.length
  · exact shown index inside
  · rw [List.getElem?_eq_none (by omega), List.getElem?_eq_none (by omega), Option.map_none]

/-! ## All sessions of a machine -/

section Seeded

variable {machine : Machine} {contents : List String} (operations : List Operation)

theorem machine_performAll_seeded :
    ((seeded machine contents).performAll operations).machine = machine :=
  (performAll_keeps _ operations).1

theorem symbols_seeded : (seeded machine contents).current.symbols =
    (List.range machine.tapeCount).map fun index =>
      (contents.getD index "").toList.getD 0 machine.blank := by
  simp only [seeded, Machine.seeded, Configuration.symbols, TapeBank.read, List.map_map,
    Function.comp_def, Tape.read_ofString]

theorem entered_performAll_seeded :
    machine.Entered ((seeded machine contents).performAll operations).current.state :=
  @entered_performAll (seeded machine contents) .initial rfl operations

theorem inRange_performAll_seeded (wellFormed : machine.WellFormed)
    (fit : contents.length ≤ machine.tapeCount) :
    ((seeded machine contents).performAll operations).current.InRange machine := by
  obtain ⟨initial, start, inRange⟩ := wellFormed.inRange_start fit
  obtain rfl := Except.ok.inj ((machine.start_eq_seeded fit).symm.trans start)
  exact @inRange_performAll (seeded machine contents) wellFormed inRange inRange operations

end Seeded

/-- A session can be brought into every entered state, and there it can be made to read any symbols,
one for each tape. -/
theorem exists_operations_entering {machine : Machine} (wellFormed : machine.WellFormed)
    {contents : List String} (fit : contents.length ≤ machine.tapeCount) {state : Nat}
    (entered : machine.Entered state) {symbols : List Char}
    (count : symbols.length = machine.tapeCount) :
    ∃ operations, ((seeded machine contents).performAll operations).current.state = state ∧
      ((seeded machine contents).performAll operations).current.symbols = symbols := by
  induction entered generalizing symbols with
  | initial =>
      have inRange := inRange_performAll_seeded [] wellFormed fit
      exact (seeded machine contents).exists_operations_reading (count.trans inRange.tapeCount.symm)
  | @next state selecting rule before running found ih =>
      obtain ⟨operations, entered, reads⟩ := ih (wellFormed.length_of_findRule? found)
      let reached := (seeded machine contents).performAll operations
      have applied : reached.machine.appliedRule? reached.current = some rule := by
        rw [machine_performAll_seeded, Machine.appliedRule?, entered, reads, running]
        exact found
      have stepped := step_of_appliedRule? applied
      have inRange := inRange_performAll_seeded (operations ++ [.step]) wellFormed fit
      obtain ⟨more, kept, readsAfter⟩ :=
        exists_operations_reading _ (count.trans inRange.tapeCount.symm)
      refine ⟨operations ++ [.step] ++ more, ?_⟩
      rw [performAll_append]
      refine ⟨kept.trans ?_, readsAfter⟩
      rw [performAll_append_singleton, perform, stepped]
      rfl

/-- A preview is the next step except where an accepting state has a rule for the symbols read:
there a rule is shown, but the step stops. All previews in all sessions of a compiled machine are
right exactly if the accepting states that a session can be brought into have no rules. -/
theorem preview_is_next_step_unless_accepting {document : Document} {machine : Machine}
    (compiled : Machine.ofDocument document = .ok machine) :
    (∀ contents : List String, contents.length ≤ machine.tapeCount →
      ∃ session, Session.start machine contents = .ok session ∧ ∀ operations : List Operation,
        let reached := session.performAll operations
        (reached.PreviewsStep ↔
          (machine.isAccepting reached.current.state → reached.rule? = none)) ∧
        (machine.isAccepting reached.current.state →
          reached.step = (.halted .accepted, reached))) ∧
    ((∀ contents : List String, contents.length ≤ machine.tapeCount →
      ∃ session, Session.start machine contents = .ok session ∧
        ∀ operations : List Operation, (session.performAll operations).PreviewsStep) ↔
      ∀ state, machine.Entered state → machine.isAccepting state →
        machine.rulesOf state = []) := by
  have wellFormed := Machine.wellFormed_of_ofDocument compiled
  refine ⟨fun contents fit => ?_, fun previews state entered accepting => ?_,
    fun ruleless contents fit => ?_⟩
  · refine ⟨_, start_eq_seeded fit, fun operations => ?_⟩
    intro reached
    have same : reached.machine = machine := machine_performAll_seeded operations
    rw [← same]
    exact ⟨previewsStep_iff, step_of_accepting⟩
  · -- The first rule of a state is found for some symbols, and a session can read these there.
    cases rules : machine.rulesOf state with
    | nil => rfl
    | cons rule after =>
        have fit : ([] : List String).length ≤ machine.tapeCount := Nat.zero_le _
        obtain ⟨session, start, previews⟩ := previews [] fit
        obtain rfl := Except.ok.inj ((start_eq_seeded fit).symm.trans start)
        have first : machine.rulesOf state = [] ++ rule :: after := rules
        obtain ⟨symbols, found⟩ :=
          (wellFormed.exists_findRule?_iff first).mpr (by simp [Rule.Shadowed])
        obtain ⟨operations, reaches, reads⟩ := exists_operations_entering wellFormed fit entered
          (wellFormed.length_of_findRule? found)
        have hidden := previewsStep_iff.mp (previews operations)
        rw [rule?, machine_performAll_seeded, reaches, reads, found] at hidden
        exact absurd (hidden accepting) (by simp)
  · refine ⟨_, start_eq_seeded fit, fun operations => previewsStep_iff.mpr fun accepting => ?_⟩
    rw [machine_performAll_seeded] at accepting
    rw [rule?, machine_performAll_seeded, Option.eq_none_iff_forall_ne_some]
    intro rule found
    have listed := Machine.mem_rulesOf_of_findRule? found
    rw [ruleless _ (entered_performAll_seeded operations) accepting] at listed
    cases listed

/-- No accepting state of the crowded machine has rules, so all its previews are right. -/
theorem preview_of_crowded_is_next_step :
    Machine.ofDocument .crowded = .ok .crowded ∧
      ∀ contents : List String, contents.length ≤ Machine.crowded.tapeCount →
        ∃ session, Session.start .crowded contents = .ok session ∧
          ∀ operations : List Operation, (session.performAll operations).PreviewsStep := by
  refine ⟨Document.ofDocument_crowded,
    (preview_is_next_step_unless_accepting Document.ofDocument_crowded).2.mpr ?_⟩
  intro state _ accepting
  match state with
  | 0 | 2 | 3 => cases accepting
  | 1 => rfl
  | _ + 4 => cases accepting

end Session

/-- A document that gives a rule to its accepting state. -/
def Document.eager : Document where
  name := "Eager"
  description := ""
  states := ["done", "go"]
  inputAlphabet := ["a"]
  tapeAlphabet := ["a", "_"]
  tapeCount := 1
  initialState := "done"
  acceptingStates := ["done"]
  blank := "_"
  wildcard := "*"
  unchanged := "*"
  transitions := [
    ("done", [("a", { write := ["_"], move := ["R"], nextState := "go" })]),
    ("go", [("*", { write := ["*"], move := ["L"], nextState := "done" })])]

/-- The machine of the eager document. -/
def Machine.eager : Machine where
  name := "Eager"
  summary := ""
  states := #[
    { name := "done"
      accepting := true
      rules := [
        { pattern := [.literal 'a']
          action := { writes := [.put '_'], moves := [.right], next := 1 } }] },
    { name := "go"
      accepting := false
      rules := [
        { pattern := [.any], action := { writes := [.keep], moves := [.left], next := 0 } }] }]
  inputAlphabet := ['a']
  tapeAlphabet := ['a', '_']
  tapeCount := 1
  blank := '_'
  wildcard := '*'
  unchanged := '*'
  initial := 0

/-- The eager document compiles to the eager machine. -/
theorem Document.ofDocument_eager : Machine.ofDocument .eager = .ok .eager := by
  rfl

/-- The eager machine begins in its accepting state. There a rule is shown that the next step does
not apply. -/
theorem Session.preview_of_eager_is_no_step :
    Machine.ofDocument .eager = .ok .eager ∧
      ∃ session, Session.start .eager ["a"] = .ok session ∧
        session.rule? = some
          { pattern := [.literal 'a']
            action := { writes := [.put '_'], moves := [.right], next := 1 } } ∧
        session.step = (.halted .accepted, session) ∧ ¬ session.PreviewsStep := by
  have shown : (seeded .eager ["a"]).rule? = some
      { pattern := [.literal 'a']
        action := { writes := [.put '_'], moves := [.right], next := 1 } } := by
    rw [rule?, symbols_seeded]
    rfl
  have stopped : (seeded .eager ["a"]).step = (.halted .accepted, seeded .eager ["a"]) :=
    step_of_accepting rfl
  exact ⟨Document.ofDocument_eager, seeded .eager ["a"], start_eq_seeded (by decide), shown,
    stopped, not_previewsStep shown (congrArg Prod.fst stopped)⟩

end TapeMachine
