import TapeMachine.Proofs.Machine.WellFormed
import TapeMachine.Proofs.Pattern

/-!
# Finding rules

A state finds its rules without wildcard through an index of positions. Where no two rules share a
pattern, the index holds exactly these rules at their positions (`RuleIndex.lookup_ofRules`), so it
answers as a scan of the rules would (`WellFormed.exactRule?_eq_find?`).
-/

namespace TapeMachine

namespace RuleIndex

variable {rules : List Rule} {symbols : List Char}

/-- Entering rules puts the one with the given symbols, at its position, before what the index held
under these symbols. -/
theorem lookup_enter (distinct : (rules.map (·.pattern)).Nodup) (index : RuleIndex)
    (position : Nat) :
    (enter index position rules).lookup symbols =
      ((rules.findIdx? (·.pattern == symbols.map PatternSymbol.literal)).map (position + ·)).or
        (index.lookup symbols) := by
  induction rules generalizing index position with
  | nil => simp [enter]
  | cons rule rules ih =>
      obtain ⟨fresh, distinctRest⟩ := List.nodup_cons.mp distinct
      rw [enter, List.findIdx?_cons]
      by_cases named : rule.pattern = symbols.map PatternSymbol.literal
      · -- No later rule replaces the entry, since none has the same pattern.
        have unnamed : rules.findIdx? (·.pattern == symbols.map PatternSymbol.literal) = none := by
          rw [List.findIdx?_eq_none_iff]
          intro later listed
          rw [beq_eq_false_iff_ne, ← named]
          intro same
          exact fresh (List.mem_map.mpr ⟨later, listed, same⟩)
        rw [Pattern.literals?_eq_some.mpr named]
        simp [ih distinctRest, unnamed, named]
      · have later : (rules.findIdx? (·.pattern == symbols.map PatternSymbol.literal)).map
              (position + 1 + ·) =
            ((rules.findIdx? (·.pattern == symbols.map PatternSymbol.literal)).map (· + 1)).map
              (position + ·) := by
          rw [Option.map_map]
          congr 1
          funext offset
          simp only [Function.comp_apply]
          omega
        cases literals : rule.pattern.literals? with
        | none => simp [ih distinctRest, named, later]
        | some found =>
            have other : (symbols == found) = false := by
              rw [beq_eq_false_iff_ne]
              rintro rfl
              exact named (Pattern.literals?_eq_some.mp literals)
            simp [ih distinctRest, named, later, List.lookup_cons, other]

/-- The index of rules with different patterns gives the position of the rule whose pattern consists
of the given symbols. -/
theorem lookup_ofRules (distinct : (rules.map (·.pattern)).Nodup) :
    (ofRules rules).lookup symbols =
      rules.findIdx? (·.pattern == symbols.map PatternSymbol.literal) := by
  simp [ofRules, lookup_enter distinct]

end RuleIndex

namespace Machine

variable {machine : Machine}

theorem mem_states_of_getElem? {state : Nat} {entry : StateEntry}
    (position : machine.states[state]? = some entry) : entry ∈ machine.states.toList := by
  rw [← Array.getElem?_toList] at position
  exact List.mem_of_getElem? position

/-- The rules of a state are allowed rules. -/
theorem WellFormed.allowsRule (wellFormed : machine.WellFormed) {state : Nat} {rule : Rule}
    (member : rule ∈ machine.rulesOf state) : machine.signature.AllowsRule rule := by
  rw [rulesOf] at member
  split at member
  · next entry position =>
      exact wellFormed.rules entry (mem_states_of_getElem? position) rule member
  · simp at member

/-- The rules of a state have different patterns. -/
theorem WellFormed.distinct_rulesOf (wellFormed : machine.WellFormed) (state : Nat) :
    ((machine.rulesOf state).map (·.pattern)).Nodup := by
  rw [rulesOf]
  split
  · next entry position =>
      exact wellFormed.distinctPatterns entry (mem_states_of_getElem? position)
  · simp

/-- A rule that is found through the index is one of the rules of its state. -/
theorem mem_rulesOf_of_exactRule? {state : Nat} {symbols : List Char} {rule : Rule}
    (found : machine.exactRule? state symbols = some rule) : rule ∈ machine.rulesOf state := by
  rw [exactRule?] at found
  rw [rulesOf]
  split at found
  · obtain ⟨position, -, listed⟩ := Option.bind_eq_some_iff.mp found
    exact List.mem_of_getElem? listed
  · cases found

/-- The index answers as a scan for the pattern of the given symbols would. -/
theorem WellFormed.exactRule?_eq_find? (wellFormed : machine.WellFormed) (state : Nat)
    (symbols : List Char) :
    machine.exactRule? state symbols =
      (machine.rulesOf state).find? (·.pattern == symbols.map PatternSymbol.literal) := by
  have distinct := wellFormed.distinct_rulesOf state
  rw [rulesOf] at distinct ⊢
  rw [exactRule?]
  split
  · next entry position =>
      rw [position] at distinct
      rw [entry.literals.property, RuleIndex.lookup_ofRules distinct,
        List.find?_eq_bind_findIdx?_getElem?]
  · rfl

/-- A machine asks the index first and scans the rules where the index has no answer. -/
theorem findRule?_eq_or (machine : Machine) (state : Nat) (symbols : List Char) :
    machine.findRule? state symbols =
      (machine.exactRule? state symbols).or
        ((machine.rulesOf state).find? fun rule => rule.pattern.accepts symbols) := by
  rw [findRule?]
  cases machine.exactRule? state symbols <;> rfl

/-- A rule that is found for a state is one of its rules. -/
theorem mem_rulesOf_of_findRule? {state : Nat} {symbols : List Char} {rule : Rule}
    (found : machine.findRule? state symbols = some rule) : rule ∈ machine.rulesOf state := by
  rw [findRule?] at found
  split at found
  · next exact equation =>
      cases found
      exact mem_rulesOf_of_exactRule? equation
  · exact List.mem_of_find?_eq_some found

end Machine

end TapeMachine
