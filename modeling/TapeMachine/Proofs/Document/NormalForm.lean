import TapeMachine.Proofs.Document.Selection
import TapeMachine.Proofs.Machine.NormalForm

/-!
# The normal form of a document

`Document.normalForm` is defined on the texts of a document: the accepting states in the order of the
states, the tables that are not empty in the same order, and every movement in its canonical token.
Writing down the machine of a document gives exactly this form (`Machine.toDocument_of_ofDocument`),
and compiling it gives the machine again, so what was authored survives up to the order of
declarations and the choice of tokens.
-/

namespace TapeMachine

open Checks

/-- The canonical token of the movement that a token names. -/
def Direction.canonicalToken (token : String) : String :=
  if token = "<" then "L" else if token = ">" then "R" else if token = "-" then "S" else token

/-- The canonical token of a movement is its letter, whichever of its tokens is written. -/
theorem Direction.canonicalToken_eq {token : String} {direction : Direction}
    (named : ofToken? token = some direction) : canonicalToken token = direction.token := by
  rw [ofToken?] at named
  split_ifs at named with left right stay <;> cases named
  · rcases left with rfl | rfl <;> rfl
  · rcases right with rfl | rfl <;> rfl
  · rcases stay with rfl | rfl <;> rfl

/-- There are three canonical tokens. -/
theorem Direction.token_mem (direction : Direction) : direction.token ∈ ["L", "R", "S"] := by
  cases direction <;> simp [token]

namespace Document

/-- An entry of a table with its movements in canonical tokens. -/
def normalEntry (entry : String × ActionRecord) : String × ActionRecord :=
  (entry.1, { entry.2 with move := entry.2.move.map Direction.canonicalToken })

/-- The table of a state with the movements of all its rules in canonical tokens. -/
def normalTable (table : String × Table ActionRecord) : String × Table ActionRecord :=
  (table.1, table.2.map normalEntry)

/-- The accepting states and the tables with rules in the order of the states, and every movement in
its canonical token. -/
def normalForm (document : Document) : Document :=
  { document with
    acceptingStates := document.states.filter (document.acceptingStates.contains ·)
    transitions := (document.states.filter fun name => !(document.tableOf name).isEmpty).map
      fun name => normalTable (name, document.tableOf name) }

variable {document : Document}

/-- The states with rules are the sources of the normal form. -/
theorem keys_normalForm :
    Table.keys document.normalForm.transitions =
      document.states.filter fun name => !(document.tableOf name).isEmpty := by
  rw [Table.keys, normalForm, List.map_map]
  exact List.map_id _

/-- The tables with rules are those of the states that have rules. -/
theorem mem_transitions_iff_tableOf (distinct : (Table.keys document.transitions).Nodup)
    {name : String} {table : Table ActionRecord} (nonempty : table ≠ []) :
    (name, table) ∈ document.transitions ↔ document.tableOf name = table := by
  rw [← Table.get?_eq_some distinct, tableOf]
  cases Table.get? document.transitions name with
  | none => simp [nonempty.symm]
  | some found => simp

/-- No table with rules is lost, repeated or made up in the normal form of a document that describes
a machine. -/
theorem Admissible.perm_transitions (admissible : document.Admissible) :
    document.normalForm.transitions.Perm
      ((document.transitions.filter (!·.2.isEmpty)).map normalTable) := by
  have written : (Table.keys document.normalForm.transitions).Nodup := by
    rw [keys_normalForm]
    exact admissible.heading.distinctStates.filter _
  have authored :
      (((document.transitions.filter (!·.2.isEmpty)).map normalTable).map (·.1)).Nodup := by
    rw [List.map_map]
    exact (List.filter_sublist.map _).nodup admissible.distinctSources
  refine (List.perm_ext_iff_of_nodup (.of_map _ written) (.of_map _ authored)).mpr fun normal => ?_
  simp only [normalForm, List.mem_map, List.mem_filter, Bool.not_eq_true', List.isEmpty_eq_false_iff]
  constructor
  · rintro ⟨name, ⟨-, nonempty⟩, rfl⟩
    have listed := (mem_transitions_iff_tableOf admissible.distinctSources nonempty).mpr rfl
    exact ⟨_, ⟨listed, nonempty⟩, rfl⟩
  · rintro ⟨⟨name, table⟩, ⟨listed, nonempty⟩, rfl⟩
    have found := (mem_transitions_iff_tableOf admissible.distinctSources nonempty).mp listed
    exact ⟨name, ⟨admissible.sources _ listed, found ▸ nonempty⟩, by rw [found]⟩

/-- The accepting states of the normal form are those of the document. -/
theorem Admissible.mem_acceptingStates (admissible : document.Admissible) {name : String} :
    name ∈ document.normalForm.acceptingStates ↔ name ∈ document.acceptingStates := by
  simp only [normalForm, List.mem_filter, List.contains_iff_mem]
  exact and_iff_right_of_imp (admissible.accepting name)

end Document

namespace Machine

variable {document : Document} {machine : Machine}

/-- The name of a state is the one at its position. -/
theorem stateName_of_getElem? {state : Nat} {name : String}
    (listed : machine.stateNames[state]? = some name) : machine.stateName state = name := by
  obtain ⟨entry, found, rfl⟩ : ∃ entry, machine.states[state]? = some entry ∧ entry.name = name := by
    simpa [stateNames] using listed
  rw [stateName, found]

/-- A rule is written as the entry it was read from, up to the tokens of the movements. -/
theorem written_of_readsRule (proper : machine.signature.Proper) {source : String}
    {entry : String × ActionRecord} {rule : Rule}
    (reads : machine.signature.ReadsRule source entry rule) :
    (rule.pattern.render machine.wildcard, machine.actionRecord rule.action) =
      Document.normalEntry entry := by
  obtain ⟨text, record⟩ := entry
  obtain ⟨-, -, pattern⟩ := (Signature.readPattern_eq_ok proper).mp reads.1
  obtain ⟨-, -, -, writes, moves, next⟩ := (Signature.readAction_eq_ok proper).mp reads.2
  have tokens : rule.action.moves.map Direction.token =
      record.move.map Direction.canonicalToken := by
    apply map_eq_of_forall₂
    rw [List.forall₂_map_left_iff]
    exact moves.imp fun token direction named => Direction.canonicalToken_eq named
  have name : machine.stateName rule.action.next = record.nextState :=
    stateName_of_getElem? (Signature.getElem?_of_readState next)
  simp only at pattern writes
  simp only [Document.normalEntry, actionRecord, tokens, name, pattern, writes]
  rfl

/-- The rules of a state are written as the table they were read from. -/
theorem ruleTable_of_readRules (proper : machine.signature.Proper) {source : String}
    {table : Table ActionRecord} {rules : List Rule}
    (reads : machine.signature.readRules source [] table = .ok rules) :
    machine.ruleTable rules = table.map Document.normalEntry := by
  obtain ⟨_, rfl, entries, -, -⟩ := Signature.readRules_eq_ok.mp reads
  apply map_eq_of_forall₂
  rw [List.forall₂_map_left_iff]
  exact entries.imp fun entry rule read => (written_of_readsRule proper read).symm

/-- What a state of a compiled machine is, its document says under the name of the state. -/
theorem written_of_mem (accepted : Machine.ofDocument document = .ok machine)
    {entry : StateEntry} (member : entry ∈ machine.states.toList) :
    entry.accepting = document.acceptingStates.contains entry.name ∧
      machine.ruleTable entry.rules =
        (document.tableOf entry.name).map Document.normalEntry := by
  obtain ⟨state, listed⟩ := List.mem_iff_getElem?.mp member
  have found : machine.states[state]? = some entry := by simpa using listed
  have declared : document.states[state]? = some entry.name := by
    rw [(spelled_of_ofDocument accepted).states]
    simp [signature, stateNames, found]
  have accepting := (state_of_ofDocument accepted declared).2
  have rules := ruleTable_of_readRules (wellFormed_of_ofDocument accepted).proper
    (readRules_tableOf accepted declared)
  rw [isAccepting, found] at accepting
  rw [rulesOf, found] at rules
  exact ⟨by rwa [Bool.eq_iff_iff, List.contains_iff_mem], rules⟩

/-- Writing down the machine of a document gives the normal form of the document. -/
theorem toDocument_of_ofDocument (accepted : Machine.ofDocument document = .ok machine) :
    machine.toDocument = document.normalForm := by
  have spelled := spelled_of_ofDocument accepted
  have states : document.states = machine.states.toList.map (·.name) := spelled.states
  have initial : machine.stateName machine.initial = document.initialState := by
    obtain ⟨declared, -⟩ := start_of_ofDocument accepted
    exact (state_of_ofDocument accepted declared).1
  have titled : machine.name = document.name ∧ machine.summary = document.description := by
    obtain ⟨_, _, _, -, -, -, -, -, rfl⟩ := ofDocument_eq_ok.mp accepted
    exact ⟨rfl, rfl⟩
  have accepting : machine.acceptingNames =
      document.states.filter (document.acceptingStates.contains ·) := by
    rw [acceptingNames, states, List.filter_map]
    congr 1
    exact List.filter_congr fun entry member => (written_of_mem accepted member).1
  have transitions : machine.toDocument.transitions = document.normalForm.transitions := by
    have nonempty : machine.states.toList.filter (!·.rules.isEmpty) =
        machine.states.toList.filter fun entry => !(document.tableOf entry.name).isEmpty := by
      refine List.filter_congr fun entry member => ?_
      have lengths := congrArg List.length (written_of_mem accepted member).2
      rw [ruleTable, List.length_map, List.length_map] at lengths
      rw [Bool.not_inj_iff, Bool.eq_iff_iff, List.isEmpty_iff_length_eq_zero,
        List.isEmpty_iff_length_eq_zero, lengths]
    rw [toDocument, Document.normalForm, nonempty]
    simp only [states, List.filter_map, List.map_map]
    refine List.map_congr_left fun entry member => ?_
    have written := (written_of_mem accepted (List.mem_of_mem_filter member)).2
    exact congrArg (Prod.mk entry.name) written
  simp only [toDocument, Document.normalForm, Document.mk.injEq]
  exact ⟨titled.1, titled.2, states.symm, spelled.inputAlphabet.symm, spelled.tapeAlphabet.symm,
    spelled.tapeCount.symm, initial, accepting, spelled.blank.symm, spelled.wildcard.symm,
    spelled.unchanged.symm, transitions⟩

/-- A machine writes its movements in canonical tokens. -/
theorem moves_of_toDocument (machine : Machine) :
    ∀ table ∈ machine.toDocument.transitions, ∀ rule ∈ table.2, ∀ token ∈ rule.2.move,
      token ∈ ["L", "R", "S"] := by
  intro table written rule listed token named
  obtain ⟨entry, -, rfl⟩ := List.mem_map.mp written
  obtain ⟨rule, -, rfl⟩ := List.mem_map.mp listed
  obtain ⟨direction, -, rfl⟩ := List.mem_map.mp named
  exact direction.token_mem

/-- Writing down the machine of a document gives the normal form of the document: only the accepting
states, the tables and the tokens of the movements may change. The accepting states are listed in
the order of the states and once each, and so are the tables with rules, none of which is lost or
made up. The machine is compiled again from its normal form, which is its own normal form. -/
theorem written_document_is_normal_form
    (accepted : Machine.ofDocument document = .ok machine) :
    machine.toDocument = document.normalForm ∧
      (document.normalForm.acceptingStates.Sublist document.states ∧
        document.normalForm.acceptingStates.Nodup ∧
        ∀ name, name ∈ document.normalForm.acceptingStates ↔ name ∈ document.acceptingStates) ∧
      ((Table.keys document.normalForm.transitions).Sublist document.states ∧
        document.normalForm.transitions.Perm
          ((document.transitions.filter (!·.2.isEmpty)).map Document.normalTable)) ∧
      (∀ table ∈ document.normalForm.transitions, ∀ rule ∈ table.2, ∀ token ∈ rule.2.move,
        token ∈ ["L", "R", "S"]) ∧
      Machine.ofDocument machine.toDocument = .ok machine ∧
      document.normalForm.normalForm = document.normalForm := by
  have admissible := exists_ofDocument_iff.mp ⟨machine, accepted⟩
  have written := toDocument_of_ofDocument accepted
  have compiles := (wellFormed_of_ofDocument accepted).ofDocument_toDocument
  have tables : (Table.keys document.normalForm.transitions).Sublist document.states := by
    rw [Document.keys_normalForm]
    exact List.filter_sublist
  have moves := moves_of_toDocument machine
  have again := toDocument_of_ofDocument compiles
  rw [written] at moves again
  exact ⟨written, ⟨List.filter_sublist, admissible.heading.distinctStates.filter _,
    fun name => admissible.mem_acceptingStates⟩, ⟨tables, admissible.perm_transitions⟩, moves,
    compiles, again.symm⟩

end Machine

/-- The crowded document written untidily: the accepting state is listed twice, a state without rules
has a table, and the tables are not in the order of the states. -/
def Document.untidy : Document :=
  { Document.crowded with
    acceptingStates := ["halt", "halt"]
    transitions := ("stuck", []) :: Document.crowded.transitions.reverse }

/-- The crowded document with its movements in canonical tokens. -/
def Document.tidy : Document :=
  { Document.crowded with
    transitions := [
      ("scan", [
        ("a,*", { write := ["*", "*"], move := ["R", "R"], nextState := "scan" }),
        ("*,*", { write := ["*", "a"], move := ["S", "S"], nextState := "stuck" }),
        ("*,_", { write := ["_", "*"], move := ["L", "S"], nextState := "scan" }),
        ("a,a", { write := ["_", "_"], move := ["L", "R"], nextState := "halt" })]),
      ("island", [("_,_", { write := ["*", "*"], move := ["R", "S"], nextState := "halt" })])] }

/-- Repeated accepting states and empty tables are dropped, tables are put in the order of the
states, and signs become letters. -/
theorem Machine.written_untidy_is_tidy :
    Machine.ofDocument .untidy = .ok .crowded ∧ Machine.crowded.toDocument = .tidy ∧
      Machine.ofDocument .tidy = .ok .crowded ∧ Document.tidy.normalForm = .tidy := by
  have accepted : Machine.ofDocument .untidy = .ok .crowded := rfl
  have normal : Document.untidy.normalForm = .tidy := by decide
  obtain ⟨written, -, -, -, again, still⟩ := written_document_is_normal_form accepted
  rw [written, normal] at again
  rw [normal] at written still
  exact ⟨accepted, written, again, still⟩

end TapeMachine
