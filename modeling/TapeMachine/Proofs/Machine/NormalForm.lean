import Mathlib.Data.List.Nodup
import TapeMachine.Proofs.Machine.WellFormed

/-!
# Writing a machine down

A well-formed machine is read back from its written form: `WellFormed.ofDocument_toDocument`. States
without rules may have a table or not (`WellFormed.ofDocument_writtenWith`), which is what lets a
format without empty lists of tables write an empty table instead.
-/

namespace TapeMachine

open Checks

/-- Movements are read back from their canonical tokens. -/
theorem Direction.forall₂_ofToken?_token (moves : List Direction) :
    List.Forall₂ (fun token direction => Direction.ofToken? token = some direction)
      (moves.map Direction.token) moves := by
  rw [List.forall₂_map_left_iff]
  exact List.forall₂_same.mpr fun direction _ => Direction.ofToken?_token direction

namespace Machine

variable {machine : Machine}

/-- The name of a state stands at its position. -/
theorem getElem?_stateNames {state : Nat} (inside : state < machine.states.size) :
    machine.stateNames[state]? = some (machine.stateName state) := by
  simp [stateNames, stateName, inside]

/-- The position of a state is read back from its name. -/
theorem WellFormed.readState_stateName (wellFormed : machine.WellFormed) (role : StateRole)
    {state : Nat} (inside : state < machine.states.size) :
    machine.signature.readState role (machine.stateName state) = .ok state :=
  Signature.readState_of_getElem? wellFormed.proper.distinctStates (getElem?_stateNames inside)

/-- An allowed rule is read back from its written form. -/
theorem WellFormed.readsRule_written (wellFormed : machine.WellFormed) {source : String}
    {rule : Rule} (allowed : machine.signature.AllowsRule rule) :
    machine.signature.ReadsRule source
      (rule.pattern.render machine.wildcard, machine.actionRecord rule.action) rule := by
  have inside : rule.action.next < machine.states.size := by
    simpa [signature, stateNames] using allowed.next
  constructor
  · rw [Signature.readPattern_eq_ok wellFormed.proper]
    exact ⟨allowed.components, allowed.pattern, rfl⟩
  · rw [Signature.readAction_eq_ok wellFormed.proper]
    exact ⟨allowed.writeCount, allowed.moveCount, allowed.writes, rfl,
      Direction.forall₂_ofToken?_token rule.action.moves,
      wellFormed.readState_stateName .next inside⟩

/-- The rules of a state are read back from their table. -/
theorem WellFormed.readRules_ruleTable (wellFormed : machine.WellFormed) {entry : StateEntry}
    (member : entry ∈ machine.states.toList) :
    machine.signature.readRules entry.name [] (machine.ruleTable entry.rules) =
      .ok entry.rules := by
  rw [Signature.readRules_eq_ok]
  refine ⟨entry.rules, rfl, ?_, wellFormed.distinctPatterns entry member, by simp⟩
  rw [ruleTable, List.forall₂_map_left_iff]
  exact List.forall₂_same.mpr fun rule listed =>
    wellFormed.readsRule_written (wellFormed.rules entry member rule listed)

/-- The tables of states are read back in the order in which they were written. -/
theorem WellFormed.readTables_written (wellFormed : machine.WellFormed)
    {entries : List StateEntry} (sublist : entries.Sublist machine.states.toList) :
    machine.signature.readTables []
        (entries.map fun entry => (entry.name, machine.ruleTable entry.rules)) =
      .ok (entries.map fun entry => (entry.name, entry.rules)) := by
  rw [Signature.readTables_eq_ok]
  refine ⟨_, rfl, ?_, ?_, by simp [Table.keys]⟩
  · rw [List.forall₂_map_left_iff, List.forall₂_map_right_iff]
    refine List.forall₂_same.mpr fun entry listed => ?_
    have member := sublist.subset listed
    exact ⟨rfl, List.mem_map_of_mem member, wellFormed.readRules_ruleTable member⟩
  · have names : (entries.map (·.name)).Sublist machine.stateNames := sublist.map _
    rw [Table.keys, List.map_map]
    exact names.nodup wellFormed.proper.distinctStates

/-- Different states have different names. -/
theorem WellFormed.eq_of_name_eq (wellFormed : machine.WellFormed) {first second : StateEntry}
    (firstMember : first ∈ machine.states.toList) (secondMember : second ∈ machine.states.toList)
    (same : first.name = second.name) : first = second :=
  List.inj_on_of_nodup_map wellFormed.proper.distinctStates firstMember secondMember same

/-- A state is accepting exactly when its name is listed among the accepting ones. -/
theorem WellFormed.contains_acceptingNames (wellFormed : machine.WellFormed) {entry : StateEntry}
    (member : entry ∈ machine.states.toList) :
    machine.acceptingNames.contains entry.name = entry.accepting := by
  rw [Bool.eq_iff_iff, List.contains_iff_mem, acceptingNames, List.mem_map]
  constructor
  · rintro ⟨other, listed, same⟩
    obtain ⟨otherMember, accepting⟩ := List.mem_filter.mp listed
    rw [← wellFormed.eq_of_name_eq otherMember member same]
    exact accepting
  · intro accepting
    exact ⟨entry, List.mem_filter.mpr ⟨member, accepting⟩, rfl⟩

/-- A state finds its rules under its name, provided that every state with rules has a table. -/
theorem WellFormed.get?_written (wellFormed : machine.WellFormed) {entries : List StateEntry}
    (sublist : entries.Sublist machine.states.toList)
    (covers : ∀ entry ∈ machine.states.toList, entry.rules ≠ [] → entry ∈ entries)
    {entry : StateEntry} (member : entry ∈ machine.states.toList) :
    (Table.get? (entries.map fun entry => (entry.name, entry.rules)) entry.name).getD [] =
      entry.rules := by
  have names : (entries.map (·.name)).Sublist machine.stateNames := sublist.map _
  have distinct : (Table.keys (entries.map fun entry => (entry.name, entry.rules))).Nodup := by
    rw [Table.keys, List.map_map]
    exact names.nodup wellFormed.proper.distinctStates
  cases found : Table.get? (entries.map fun entry => (entry.name, entry.rules)) entry.name with
  | some rules =>
      obtain ⟨other, listed, same⟩ := List.mem_map.mp ((Table.get?_eq_some distinct).mp found)
      obtain ⟨name, rfl⟩ : other.name = entry.name ∧ other.rules = rules := by simpa using same
      rw [wellFormed.eq_of_name_eq (sublist.subset listed) member name]
      rfl
  | none =>
      by_contra nonempty
      have listed := covers entry member (Ne.symm nonempty)
      have present := (Table.get?_eq_some distinct).mpr (List.mem_map_of_mem listed)
      rw [found] at present
      cases present

/-- The document of a machine with the tables of the given states. -/
def writtenWith (machine : Machine) (entries : List StateEntry) : Document :=
  { machine.toDocument with
    transitions := entries.map fun entry => (entry.name, machine.ruleTable entry.rules) }

/-- A well-formed machine is read back from its written form, whichever states without rules have
an empty table. -/
theorem WellFormed.ofDocument_writtenWith (wellFormed : machine.WellFormed)
    {entries : List StateEntry} (sublist : entries.Sublist machine.states.toList)
    (covers : ∀ entry ∈ machine.states.toList, entry.rules ≠ [] → entry ∈ entries) :
    Machine.ofDocument (machine.writtenWith entries) = .ok machine := by
  rw [ofDocument_eq_ok]
  refine ⟨machine.signature, machine.initial, _, wellFormed.proper,
    ⟨rfl, rfl, rfl, rfl, rfl, rfl, rfl⟩, wellFormed.readState_stateName .initial wellFormed.initial,
    ?_, wellFormed.readTables_written sublist, ?_⟩
  · intro name listed
    obtain ⟨entry, accepting, rfl⟩ := List.mem_map.mp listed
    exact List.mem_map_of_mem (List.mem_of_mem_filter accepting)
  · have states : machine.stateNames.map (fun name =>
        { name := name
          accepting := machine.acceptingNames.contains name
          rules := (Table.get? (entries.map fun entry => (entry.name, entry.rules)) name).getD []
          : StateEntry }) = machine.states.toList := by
      rw [stateNames, List.map_map]
      refine List.map_congr_left (g := id) (fun entry member => ?_) |>.trans (List.map_id _)
      apply StateEntry.ext
      · rfl
      · exact wellFormed.contains_acceptingNames member
      · exact wellFormed.get?_written sublist covers member
    simp only [compiled, writtenWith, toDocument]
    rw [states]
    rfl

/-- A well-formed machine is read back from its written form. -/
theorem WellFormed.ofDocument_toDocument (wellFormed : machine.WellFormed) :
    Machine.ofDocument machine.toDocument = .ok machine :=
  wellFormed.ofDocument_writtenWith List.filter_sublist
    fun entry member nonempty => List.mem_filter.mpr ⟨member, by simpa using nonempty⟩

end Machine

end TapeMachine
