import TapeMachine.Proofs.Machine.RuleTables

/-!
# Machines that documents describe

`Machine.WellFormed` is what compiling promises about a machine. Every machine of a document is
well formed, and every well-formed machine is the machine of its own written form, so the
predicate describes exactly the machines that documents can give.
-/

namespace TapeMachine

open Checks

/-- An entry of a table without repeated keys is the one found under its key. -/
theorem Table.get?_eq_some {α : Type} {table : Table α} (distinct : (Table.keys table).Nodup)
    {key : String} {value : α} :
    Table.get? table key = some value ↔ (key, value) ∈ table := by
  simp only [Table.get?, Option.map_eq_some_iff]
  constructor
  · rintro ⟨entry, found, rfl⟩
    have same := List.find?_some found
    obtain rfl : entry.1 = key := by simpa using same
    exact List.mem_of_find?_eq_some found
  · intro member
    refine ⟨(key, value), ?_, rfl⟩
    rw [Table.keys] at distinct
    induction table with
    | nil => simp at member
    | cons entry table ih =>
        rw [List.map_cons, List.nodup_cons] at distinct
        rw [List.find?_cons]
        rcases List.mem_cons.mp member with rfl | later
        · simp
        · have other : (entry.1 == key) = false := by
            have listed : key ∈ table.map (·.1) := List.mem_map_of_mem later
            grind
          rw [other]
          exact ih distinct.2 later

namespace Machine

/-- The signature under which the rules of a machine were read. -/
def signature (machine : Machine) : Signature where
  tapeCount := machine.tapeCount
  states := machine.stateNames
  blank := machine.blank
  wildcard := machine.wildcard
  unchanged := machine.unchanged
  tapeAlphabet := machine.tapeAlphabet
  inputAlphabet := machine.inputAlphabet

/-- What compiling promises about a machine. -/
structure WellFormed (machine : Machine) : Prop where
  proper : machine.signature.Proper
  initial : machine.initial < machine.states.size
  rules : ∀ entry ∈ machine.states.toList, ∀ rule ∈ entry.rules, machine.signature.AllowsRule rule
  distinctPatterns : ∀ entry ∈ machine.states.toList, (entry.rules.map (·.pattern)).Nodup

/-- The machine of a document whose heading, initial state and rules were read. -/
def compiled (document : Document) (signature : Signature) (initial : Nat)
    (tables : Table (List Rule)) : Machine where
  name := document.name
  summary := document.description
  states := (document.states.map fun name =>
    { name := name
      accepting := document.acceptingStates.contains name
      rules := (Table.get? tables name).getD [] : StateEntry }).toArray
  inputAlphabet := signature.inputAlphabet
  tapeAlphabet := signature.tapeAlphabet
  tapeCount := signature.tapeCount
  blank := signature.blank
  wildcard := signature.wildcard
  unchanged := signature.unchanged
  initial := initial

/-- The rules of a compiled machine were read under the signature of that machine. -/
theorem signature_compiled {document : Document} {signature : Signature} {initial : Nat}
    {tables : Table (List Rule)} (spelled : Signature.Spelled document signature) :
    (compiled document signature initial tables).signature = signature := by
  have names : (compiled document signature initial tables).stateNames = signature.states := by
    simp only [compiled, stateNames, List.map_map, ← spelled.states]
    exact List.map_id'' (fun _ => rfl) document.states
  simp only [Machine.signature, names]
  rfl

/-- A document gives a machine exactly when its heading, its initial state, its accepting states
and its rules can be read, and the machine is then made of what was read. -/
theorem ofDocument_eq_ok {document : Document} {machine : Machine} :
    Machine.ofDocument document = .ok machine ↔
      ∃ signature initial tables, signature.Proper ∧ Signature.Spelled document signature ∧
        signature.readState .initial document.initialState = .ok initial ∧
        (∀ name ∈ document.acceptingStates, name ∈ signature.states) ∧
        signature.readTables [] document.transitions = .ok tables ∧
        machine = compiled document signature initial tables := by
  have accepting {signature : Signature} {passed : PUnit} :
      (document.acceptingStates.forM fun name => do
        let _ ← signature.readState .accepting name) = .ok passed ↔
        ∀ name ∈ document.acceptingStates, name ∈ signature.states := by
    rw [forM_eq_ok]
    simp [Signature.exists_readState]
  simp only [Machine.ofDocument, bind_eq_ok, Signature.ofDocument_eq_ok, accepting, pure_eq_ok]
  constructor
  · rintro ⟨signature, ⟨proper, spelled⟩, initial, start, _, accepted, tables, rules, rfl⟩
    exact ⟨signature, initial, tables, proper, spelled, start, accepted, rules, rfl⟩
  · rintro ⟨signature, initial, tables, proper, spelled, start, accepted, rules, rfl⟩
    exact ⟨signature, ⟨proper, spelled⟩, initial, start, (), accepted, tables, rules, rfl⟩

end Machine

namespace Signature

variable {signature : Signature}

/-- Whatever is read as a rule is an allowed rule. -/
theorem allowsRule_of_readsRule (proper : signature.Proper) {source : String}
    {entry : String × ActionRecord} {rule : Rule} (reads : signature.ReadsRule source entry rule) :
    signature.AllowsRule rule := by
  obtain ⟨components, pattern, -⟩ := (readPattern_eq_ok proper).mp reads.1
  obtain ⟨writeCount, moveCount, writes, -, -, next⟩ := (readAction_eq_ok proper).mp reads.2
  have declared := getElem?_of_readState next
  obtain ⟨inside, -⟩ := List.getElem?_eq_some_iff.mp declared
  exact ⟨components, pattern, writeCount, writes, moveCount, inside⟩

/-- Tables of rules hold allowed rules, with different patterns under each name. -/
theorem rules_of_readTables (proper : signature.Proper) {written : Table (Table ActionRecord)}
    {tables : Table (List Rule)} (reads : signature.readTables [] written = .ok tables)
    {name : String} {rules : List Rule} (found : Table.get? tables name = some rules) :
    (∀ rule ∈ rules, signature.AllowsRule rule) ∧ (rules.map (·.pattern)).Nodup := by
  obtain ⟨_, rfl, readsTables, distinct, -⟩ := readTables_eq_ok.mp reads
  have member := (Table.get?_eq_some distinct).mp found
  obtain ⟨_, -, -, -, readsRules⟩ := exists_mem_of_forall₂ readsTables member
  obtain ⟨_, rfl, readsEntries, distinctPatterns, -⟩ := readRules_eq_ok.mp readsRules
  refine ⟨fun rule listed => ?_, distinctPatterns⟩
  obtain ⟨_, -, readsRule⟩ := exists_mem_of_forall₂ readsEntries listed
  exact allowsRule_of_readsRule proper readsRule

end Signature

namespace Machine

/-- Every machine of a document is well formed. -/
theorem wellFormed_of_ofDocument {document : Document} {machine : Machine}
    (accepted : Machine.ofDocument document = .ok machine) : machine.WellFormed := by
  obtain ⟨signature, initial, tables, proper, spelled, start, -, rules, rfl⟩ :=
    ofDocument_eq_ok.mp accepted
  have entries : ∀ entry ∈ (compiled document signature initial tables).states.toList,
      (∀ rule ∈ entry.rules, signature.AllowsRule rule) ∧
        (entry.rules.map (·.pattern)).Nodup := by
    intro entry member
    obtain ⟨name, -, rfl⟩ := List.mem_map.mp member
    dsimp only
    cases found : Table.get? tables name with
    | none => simp
    | some rules' => simpa using Signature.rules_of_readTables proper rules found
  constructor
  · rw [signature_compiled spelled]
    exact proper
  · have declared := Signature.getElem?_of_readState start
    obtain ⟨inside, -⟩ := List.getElem?_eq_some_iff.mp declared
    simpa [compiled, spelled.states] using inside
  · rw [signature_compiled spelled]
    exact fun entry member => (entries entry member).1
  · exact fun entry member => (entries entry member).2

variable {document : Document} {machine : Machine}

/-- The heading of a document spells out the signature of its machine. -/
theorem spelled_of_ofDocument (accepted : Machine.ofDocument document = .ok machine) :
    Signature.Spelled document machine.signature := by
  obtain ⟨signature, initial, tables, -, spelled, -, -, -, rfl⟩ := ofDocument_eq_ok.mp accepted
  rwa [signature_compiled spelled]

theorem tapeCount_of_ofDocument (accepted : Machine.ofDocument document = .ok machine) :
    machine.tapeCount = document.tapeCount :=
  (spelled_of_ofDocument accepted).tapeCount.symm

/-- What the states of a compiled machine are, by the names that its document gives them. -/
theorem state_of_ofDocument (accepted : Machine.ofDocument document = .ok machine) {state : Nat}
    {name : String} (declared : document.states[state]? = some name) :
    machine.stateName state = name ∧
      (machine.isAccepting state ↔ name ∈ document.acceptingStates) := by
  obtain ⟨signature, initial, tables, -, -, -, -, -, rfl⟩ := ofDocument_eq_ok.mp accepted
  simp [stateName, isAccepting, compiled, declared]

/-- A compiled machine starts in the state that its document names, on tapes with its blank. -/
theorem start_of_ofDocument (accepted : Machine.ofDocument document = .ok machine) :
    document.states[machine.initial]? = some document.initialState ∧
      machine.blank.toString = document.blank := by
  refine ⟨?_, (spelled_of_ofDocument accepted).blank.symm⟩
  obtain ⟨signature, initial, tables, -, spelled, start, -, -, rfl⟩ := ofDocument_eq_ok.mp accepted
  rw [spelled.states]
  exact Signature.getElem?_of_readState start

end Machine

/-- A document with awkward symbols: a space, a comment mark, a quote and a line feed are tape
symbols, and the wildcard is the separator. The machine replaces its input symbol by a quote and
accepts. -/
def Document.awkward : Document where
  name := "Quote one"
  description := "Every symbol needs care."
  states := ["rules", "-"]
  inputAlphabet := [" "]
  tapeAlphabet := [" ", "#", "'", "\n"]
  tapeCount := 1
  initialState := "rules"
  acceptingStates := ["-"]
  blank := "\n"
  wildcard := ","
  unchanged := "*"
  transitions := [("rules", [(" ", { write := ["'"], move := [">"], nextState := "-" }),
    ("#", { write := ["*"], move := ["R"], nextState := "rules" })])]

/-- The machine of the document with awkward symbols. -/
def Machine.awkward : Machine where
  name := "Quote one"
  summary := "Every symbol needs care."
  states := #[
    { name := "rules"
      accepting := false
      rules := [
        { pattern := [.literal ' ']
          action := { writes := [.put '\''], moves := [.right], next := 1 } },
        { pattern := [.literal '#']
          action := { writes := [.keep], moves := [.right], next := 0 } }] },
    { name := "-", accepting := true, rules := [] }]
  inputAlphabet := [' ']
  tapeAlphabet := [' ', '#', '\'', '\n']
  tapeCount := 1
  blank := '\n'
  wildcard := ','
  unchanged := '*'
  initial := 0

/-- The awkward document compiles to the awkward machine. -/
theorem Document.ofDocument_awkward : Machine.ofDocument .awkward = .ok .awkward := by
  rfl

end TapeMachine
