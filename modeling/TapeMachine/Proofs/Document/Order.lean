import Mathlib.Data.List.Find
import Mathlib.Data.List.Perm.Basic
import TapeMachine.Batch
import TapeMachine.Proofs.Document.Selection
import TapeMachine.Proofs.Run.Lockstep

/-!
# What the order of declarations means

`Document.Reordered` relates two documents that say the same in another order, in which only the
rules with a wildcard keep theirs. Selecting a rule looks for the one entry that spells the symbols,
and otherwise at the entries with a wildcard alone (`Document.ruleFor?_eq`), so both documents
select the same entries. States are numbered differently, so the two machines are compared by the
names of their states: `Document.Alike` relates their configurations, and every step keeps it.
-/

namespace TapeMachine

open Checks

/-- A table without repeated keys is determined by its entries and the order of its keys. -/
theorem Table.eq_of_perm_of_keys_eq {α : Type} {table other : Table α} (perm : table.Perm other)
    (keys : Table.keys table = Table.keys other) (distinct : (Table.keys table).Nodup) :
    table = other := by
  induction table generalizing other with
  | nil => exact perm.nil_eq
  | cons entry table ih =>
      obtain _ | ⟨first, others⟩ := other
      · cases keys
      · obtain ⟨sameKey, sameKeys⟩ : entry.1 = first.1 ∧ Table.keys table = Table.keys others := by
          simpa [Table.keys] using keys
        obtain rfl : entry = first :=
          List.inj_on_of_nodup_map distinct List.mem_cons_self
            (perm.mem_iff.mpr List.mem_cons_self) sameKey
        rw [Table.keys, List.map_cons, List.nodup_cons] at distinct
        rw [ih (List.perm_cons entry |>.mp perm) sameKeys distinct.2]

namespace Document

/-- A written pattern with a wildcard among its components. -/
def HasWildcard (document : Document) (pattern : String) : Prop :=
  document.wildcard ∈ components pattern

instance (document : Document) (pattern : String) : Decidable (document.HasWildcard pattern) :=
  inferInstanceAs (Decidable (_ ∈ _))

/-- The same rules in another order, in which the patterns with a wildcard keep theirs. -/
structure RulesReordered (document : Document) (rules others : Table ActionRecord) : Prop where
  perm : rules.Perm others
  wildcards : (Table.keys rules).filter (document.HasWildcard ·) =
    (Table.keys others).filter (document.HasWildcard ·)

/-- The same rules for the same state, in another order. -/
def TableReordered (document : Document) (table other : String × Table ActionRecord) : Prop :=
  table.1 = other.1 ∧ document.RulesReordered table.2 other.2

/-- The same declarations in another order. Only rules with a wildcard keep their order among each
other. -/
structure Reordered (document other : Document) : Prop where
  name : document.name = other.name
  description : document.description = other.description
  states : document.states.Perm other.states
  inputAlphabet : document.inputAlphabet.Perm other.inputAlphabet
  tapeAlphabet : document.tapeAlphabet.Perm other.tapeAlphabet
  tapeCount : document.tapeCount = other.tapeCount
  initialState : document.initialState = other.initialState
  acceptingStates : document.acceptingStates.Perm other.acceptingStates
  blank : document.blank = other.blank
  wildcard : document.wildcard = other.wildcard
  unchanged : document.unchanged = other.unchanged
  transitions : ∃ tables, List.Forall₂ document.TableReordered document.transitions tables ∧
    tables.Perm other.transitions

variable {document other : Document}

/-! ## Both documents or neither describe a machine -/

/-- Every table of the second document is a table of the first in another order. -/
theorem Reordered.exists_table (reordered : document.Reordered other)
    {table : String × Table ActionRecord} (member : table ∈ other.transitions) :
    ∃ original ∈ document.transitions, document.TableReordered original table := by
  obtain ⟨tables, related, perm⟩ := reordered.transitions
  exact exists_mem_of_forall₂ related (perm.mem_iff.mpr member)

/-- A reordered document has tables for the same states. -/
theorem Reordered.keys_transitions (reordered : document.Reordered other) :
    (Table.keys document.transitions).Perm (Table.keys other.transitions) := by
  obtain ⟨tables, related, perm⟩ := reordered.transitions
  have same : Table.keys document.transitions = Table.keys tables := by
    symm
    apply map_eq_of_forall₂
    rw [Table.keys, List.forall₂_map_left_iff]
    exact related.imp fun table reordered pair => pair.1
  rw [same]
  exact perm.map _

/-- Reordering can be undone. -/
theorem Reordered.symm (reordered : document.Reordered other) : other.Reordered document := by
  obtain ⟨tables, related, perm⟩ := reordered.transitions
  have flipped : List.Forall₂ other.TableReordered tables document.transitions := by
    refine related.flip.imp fun table original pair => ⟨pair.1.symm, pair.2.perm.symm, ?_⟩
    have wildcards := pair.2.wildcards
    simp only [HasWildcard, reordered.wildcard] at wildcards
    exact wildcards.symm
  obtain ⟨originals, back, permuted⟩ := List.perm_comp_forall₂ perm.symm flipped
  exact {
    name := reordered.name.symm
    description := reordered.description.symm
    states := reordered.states.symm
    inputAlphabet := reordered.inputAlphabet.symm
    tapeAlphabet := reordered.tapeAlphabet.symm
    tapeCount := reordered.tapeCount.symm
    initialState := reordered.initialState.symm
    acceptingStates := reordered.acceptingStates.symm
    blank := reordered.blank.symm
    wildcard := reordered.wildcard.symm
    unchanged := reordered.unchanged.symm
    transitions := ⟨originals, back, permuted⟩ }

/-- A proper heading stays proper when it is reordered. -/
theorem Reordered.properHeading (reordered : document.Reordered other)
    (heading : document.ProperHeading) : other.ProperHeading := by
  have states {name : String} := @List.Perm.mem_iff _ name _ _ reordered.states
  have tape {token : String} := @List.Perm.mem_iff _ token _ _ reordered.tapeAlphabet
  have input {token : String} := @List.Perm.mem_iff _ token _ _ reordered.inputAlphabet
  exact {
    tapes := reordered.tapeCount ▸ heading.tapes
    states := fun empty => heading.states (List.perm_nil.mp (empty ▸ reordered.states))
    named := mt states.mpr heading.named
    distinctStates := reordered.states.nodup_iff.mp heading.distinctStates
    blankToken := reordered.blank ▸ heading.blankToken
    wildcardToken := reordered.wildcard ▸ heading.wildcardToken
    unchangedToken := reordered.unchanged ▸ heading.unchangedToken
    tapeTokens := fun token member => heading.tapeTokens token (tape.mpr member)
    inputTokens := fun token member => heading.inputTokens token (input.mpr member)
    distinctTape := reordered.tapeAlphabet.nodup_iff.mp heading.distinctTape
    distinctInput := reordered.inputAlphabet.nodup_iff.mp heading.distinctInput
    input := fun token member => tape.mp (heading.input token (input.mpr member))
    blank := tape.mp (reordered.blank ▸ heading.blank)
    wildcard := mt tape.mpr (reordered.wildcard ▸ heading.wildcard)
    unchanged := mt tape.mpr (reordered.unchanged ▸ heading.unchanged)
    separator := mt tape.mpr heading.separator }

/-- A reordered document admits the same rules. -/
theorem Reordered.admitsRule (reordered : document.Reordered other) {pattern : String}
    {record : ActionRecord} (admits : document.AdmitsRule pattern record) :
    other.AdmitsRule pattern record := by
  have token {placeholder token : String} (allowed : document.AdmitsToken placeholder token) :
      other.AdmitsToken placeholder token :=
    ⟨allowed.1, allowed.2.imp id reordered.tapeAlphabet.mem_iff.mp⟩
  exact {
    componentCount := reordered.tapeCount ▸ admits.componentCount
    components := fun found member =>
      reordered.wildcard ▸ token (admits.components found member)
    writeCount := reordered.tapeCount ▸ admits.writeCount
    writes := fun found member => reordered.unchanged ▸ token (admits.writes found member)
    moveCount := reordered.tapeCount ▸ admits.moveCount
    moves := admits.moves
    next := reordered.states.mem_iff.mp admits.next }

/-- An admissible document stays admissible when it is reordered. -/
theorem Reordered.admissible (reordered : document.Reordered other)
    (admissible : document.Admissible) : other.Admissible := by
  have states {name : String} := @List.Perm.mem_iff _ name _ _ reordered.states
  refine {
    heading := reordered.properHeading admissible.heading
    initial := states.mp (reordered.initialState ▸ admissible.initial)
    accepting := fun name member =>
      states.mp (admissible.accepting name (reordered.acceptingStates.mem_iff.mpr member))
    sources := fun table member => ?_
    distinctSources := reordered.keys_transitions.nodup_iff.mp admissible.distinctSources
    rules := fun table member rule listed => ?_
    distinctPatterns := fun table member => ?_ }
  all_goals obtain ⟨original, declared, same, rules⟩ := reordered.exists_table member
  · rw [← same]
    exact states.mp (admissible.sources original declared)
  · exact reordered.admitsRule
      (admissible.rules original declared rule (rules.perm.mem_iff.mpr listed))
  · exact (rules.perm.map _).nodup_iff.mp (admissible.distinctPatterns original declared)

/-! ## Both documents select the same entries -/

variable {symbols : List Char} {pattern : String}

/-- A pattern is told by its components. -/
theorem components_injective : Function.Injective components := by
  intro first second same
  have words := List.map_injective_iff.mpr (fun _ _ => String.ofList_injective) same
  have joined := congrArg (List.intercalate [',']) words
  rw [List.intercalate_splitOn, List.intercalate_splitOn] at joined
  exact String.toList_inj.mp joined

/-- A pattern that matches the symbols read without a wildcard spells them. -/
theorem Matches.spells (matching : document.Matches symbols pattern)
    (literal : ¬ document.HasWildcard pattern) : document.Spells symbols pattern := by
  refine ⟨literal, ?_⟩
  rw [← List.forall₂_eq_eq_eq, List.forall₂_map_right_iff]
  rw [HasWildcard] at literal
  rw [Matches] at matching
  generalize components pattern = tokens at literal matching
  induction matching with
  | nil => exact .nil
  | cons first _ ih =>
      rw [List.mem_cons, not_or] at literal
      exact .cons (first.resolve_left (Ne.symm literal.1)) (ih literal.2)

/-- Where no entry spells the symbols read, only those with a wildcard count. -/
theorem ruleFor?_eq (document : Document) (name : String) (symbols : List Char) :
    document.ruleFor? name symbols =
      ((document.tableOf name).find? fun entry => document.Spells symbols entry.1).or
        (((document.tableOf name).filter fun entry => document.HasWildcard entry.1).find?
          fun entry => document.Matches symbols entry.1) := by
  rw [ruleFor?]
  cases spelled : (document.tableOf name).find? fun entry => document.Spells symbols entry.1 with
  | some entry => rfl
  | none =>
      rw [Option.none_or, Option.none_or, List.find?_filter]
      refine List.find?_congr fun entry listed => ?_
      have unspelled : ¬ document.Spells symbols entry.1 := by
        simpa using List.find?_eq_none.mp spelled entry listed
      have wildcard : document.Matches symbols entry.1 → document.HasWildcard entry.1 :=
        fun matching => by_contra fun literal => unspelled (matching.spells literal)
      rw [Bool.eq_iff_iff]
      simpa using wildcard

/-- Reordering a table keeps the order of the rules with wildcards. -/
theorem RulesReordered.filter_eq {rules others : Table ActionRecord}
    (reordered : document.RulesReordered rules others) (distinct : (Table.keys rules).Nodup) :
    rules.filter (fun entry => document.HasWildcard entry.1) =
      others.filter fun entry => document.HasWildcard entry.1 := by
  have keys (table : Table ActionRecord) :
      Table.keys (table.filter fun entry => document.HasWildcard entry.1) =
        (Table.keys table).filter (document.HasWildcard ·) := by
    rw [Table.keys, Table.keys, List.filter_map]
    rfl
  apply Table.eq_of_perm_of_keys_eq (reordered.perm.filter _)
  · rw [keys, keys, reordered.wildcards]
  · rw [keys]
    exact distinct.filter _

/-- Each state keeps its rules, reordered. -/
theorem Reordered.rulesReordered_tableOf (reordered : document.Reordered other)
    (admissible : document.Admissible) (name : String) :
    document.RulesReordered (document.tableOf name) (other.tableOf name) := by
  have otherDistinct := (reordered.admissible admissible).distinctSources
  have keys := reordered.keys_transitions
  rw [tableOf, tableOf]
  cases found : Table.get? other.transitions name with
  | some rules =>
      obtain ⟨original, declared, same, related⟩ :=
        reordered.exists_table ((Table.get?_eq_some otherDistinct).mp found)
      obtain rfl : original.1 = name := same
      rw [(Table.get?_eq_some admissible.distinctSources).mpr declared]
      exact related
  | none =>
      have absent : Table.get? document.transitions name = none := by
        rw [Table.get?, Option.map_eq_none_iff, List.find?_eq_none] at found ⊢
        intro table declared named
        have listed : table.1 ∈ Table.keys other.transitions :=
          keys.mem_iff.mp (List.mem_map_of_mem declared)
        obtain ⟨partner, partnerDeclared, partnerNamed⟩ := List.mem_map.mp listed
        exact found partner partnerDeclared (partnerNamed ▸ named)
      rw [absent]
      exact ⟨.refl _, rfl⟩

/-- Documents that differ in order select the same entries. -/
theorem Reordered.ruleFor?_eq (reordered : document.Reordered other)
    (admissible : document.Admissible) (name : String) (symbols : List Char) :
    document.ruleFor? name symbols = other.ruleFor? name symbols := by
  have rules := reordered.rulesReordered_tableOf admissible name
  have distinct : (Table.keys (document.tableOf name)).Nodup := by
    rw [tableOf]
    cases found : Table.get? document.transitions name with
    | none => exact .nil
    | some table =>
        exact admissible.distinctPatterns _
          ((Table.get?_eq_some admissible.distinctSources).mp found)
  -- At most one entry spells the symbols, so it does not matter where it stands.
  have unique : {entry ∈ document.tableOf name |
      decide (document.Spells symbols entry.1) = true}.Subsingleton := by
    rintro first ⟨firstListed, firstSpells⟩ second ⟨secondListed, secondSpells⟩
    have same : components first.1 = components second.1 :=
      (of_decide_eq_true firstSpells).2.trans (of_decide_eq_true secondSpells).2.symm
    exact List.inj_on_of_nodup_map distinct firstListed secondListed (components_injective same)
  rw [document.ruleFor?_eq, other.ruleFor?_eq, List.find?_eq_find?_of_perm rules.perm unique,
    rules.filter_eq distinct]
  -- What is left differs in the document whose wildcard is meant, and they have the same.
  simp only [Spells, Matches, HasWildcard, reordered.wildcard]
  congr!

/-! ## Both machines run alike -/

/-- Configurations of two machines that differ in the numbers of their states at most. -/
structure Alike (document other : Document) (here there : Configuration) : Prop where
  state : ∃ name, document.states[here.state]? = some name ∧ other.states[there.state]? = some name
  steps : here.steps = there.steps
  tapes : here.tapes = there.tapes

end Document

namespace Machine

open TapeMachine.Document (Alike)

variable {document other : Document} {machine partner : Machine} {here there : Configuration}

section Alike

variable (reordered : document.Reordered other)
  (accepted : Machine.ofDocument document = .ok machine)
  (partnerAccepted : Machine.ofDocument other = .ok partner)

include reordered accepted partnerAccepted

/-- Two alike configurations stop for the same reason or take actions that leave them alike. -/
theorem nextAction_alike (alike : Alike document other here there) :
    (∃ halt, machine.nextAction here = .error halt ∧ partner.nextAction there = .error halt) ∨
      ∃ action partnerAction, machine.nextAction here = .ok action ∧
        partner.nextAction there = .ok partnerAction ∧
        Alike document other (here.apply action) (there.apply partnerAction) := by
  obtain ⟨⟨name, declared, partnerDeclared⟩, steps, tapes⟩ := alike
  have admissible := exists_ofDocument_iff.mp ⟨machine, accepted⟩
  obtain ⟨stateName, accepting⟩ := state_of_ofDocument accepted declared
  obtain ⟨partnerName, partnerAccepting⟩ := state_of_ofDocument partnerAccepted partnerDeclared
  have symbols : there.symbols = here.symbols := by
    rw [Configuration.symbols, Configuration.symbols, tapes]
  have found := rel_ruleFor? accepted declared here.symbols
  have partnerFound := rel_ruleFor? partnerAccepted partnerDeclared here.symbols
  rw [← reordered.ruleFor?_eq admissible] at partnerFound
  rw [← reordered.acceptingStates.mem_iff, ← accepting] at partnerAccepting
  simp only [nextAction, partnerAccepting, symbols, stateName, partnerName]
  by_cases accepts : machine.isAccepting here.state = true
  · simp [accepts]
  · generalize document.ruleFor? name here.symbols = entry at found partnerFound
    generalize machine.findRule? here.state here.symbols = rule at found ⊢
    generalize partner.findRule? there.state here.symbols = partnerRule at partnerFound ⊢
    cases found with
    | none =>
        cases partnerFound
        simp [accepts]
    | @some entry rule denoted =>
        cases partnerFound with
        | some partnerDenoted =>
            obtain ⟨writes, moves⟩ := denoted.effect_eq reordered.unchanged partnerDenoted
            simp only [if_neg accepts]
            refine .inr ⟨_, _, rfl, rfl, ⟨_, denoted.next, partnerDenoted.next⟩, ?_, ?_⟩
            · simp only [Configuration.apply, steps]
            · simp only [Configuration.apply, tapes, writes, moves]

/-- Two alike configurations run to the same outcome and stay alike. -/
theorem run_alike (config : RunConfig) (alike : Alike document other here there) :
    (machine.run config here).outcome = (partner.run config there).outcome ∧
      Alike document other (machine.run config here).configuration
        (partner.run config there).configuration := by
  have lockstep : Lockstep machine partner (Alike document other) :=
    ⟨Alike.steps, nextAction_alike reordered accepted partnerAccepted⟩
  exact lockstep.run config alike

end Alike

/-- What a run on given tapes shows: its result, and the contents of all tapes without and with
trailing blanks. -/
def observe (machine : Machine) (config : RunConfig) (contents : List String) :
    Except TapeIndexError (RunResult × List String × List String) := do
  let finish ← machine.runOn config contents
  return (finish.result machine, TapeBank.contents finish.configuration.tapes true,
    TapeBank.contents finish.configuration.tapes false)

/-- The order of declarations has no meaning, except among the rules with a wildcard: a document in
another order describes a machine exactly when the document does, and the two machines show the same
on all tapes and under all settings. -/
theorem declaration_order_is_immaterial {document other : Document}
    (reordered : document.Reordered other) :
    ((∃ partner, Machine.ofDocument other = .ok partner) ↔
      ∃ machine, Machine.ofDocument document = .ok machine) ∧
    ∀ machine partner, Machine.ofDocument document = .ok machine →
      Machine.ofDocument other = .ok partner → ∀ config contents,
      machine.observe config contents = partner.observe config contents := by
  refine ⟨?_, fun machine partner accepted partnerAccepted config contents => ?_⟩
  · rw [exists_ofDocument_iff, exists_ofDocument_iff]
    exact ⟨reordered.symm.admissible, reordered.admissible⟩
  · have tapeCount : machine.tapeCount = partner.tapeCount := by
      rw [tapeCount_of_ofDocument accepted, tapeCount_of_ofDocument partnerAccepted,
        reordered.tapeCount]
    obtain ⟨initial, blank⟩ := start_of_ofDocument accepted
    obtain ⟨partnerInitial, partnerBlank⟩ := start_of_ofDocument partnerAccepted
    have sameBlank : machine.blank = partner.blank :=
      Text.toString_injective (blank.trans (reordered.blank.trans partnerBlank.symm))
    simp only [observe, runOn, start, tapeCount, sameBlank]
    cases TapeBank.seed partner.tapeCount contents partner.blank with
    | error refused => rfl
    | ok tapes =>
        have begin : Alike document other { state := machine.initial, steps := 0, tapes }
            { state := partner.initial, steps := 0, tapes } :=
          ⟨⟨_, initial, reordered.initialState ▸ partnerInitial⟩, rfl, rfl⟩
        obtain ⟨outcome, ⟨name, declared, partnerDeclared⟩, steps, sameTapes⟩ :=
          run_alike reordered accepted partnerAccepted config begin
        have state := (state_of_ofDocument accepted declared).1
        have partnerState := (state_of_ofDocument partnerAccepted partnerDeclared).1
        simp only [pure, Except.pure, bind, Except.bind, RunEnd.result, result, outcome, state,
          partnerState, steps, sameTapes, Configuration.heads, Configuration.symbols]

end Machine

/-- The crowded document with its states and tape symbols in reverse, and the rule without a
wildcard before the others of its table. -/
def Document.shuffled : Document := { Document.crowded with
  states := ["island", "stuck", "halt", "scan"]
  tapeAlphabet := ["_", "a"]
  transitions := [
    ("island", [("_,_", { write := ["*", "*"], move := ["R", "S"], nextState := "halt" })]),
    ("scan", [
      ("a,a", { write := ["_", "_"], move := ["L", ">"], nextState := "halt" }),
      ("a,*", { write := ["*", "*"], move := ["R", "R"], nextState := "scan" }),
      ("*,*", { write := ["*", "a"], move := ["S", "S"], nextState := "stuck" }),
      ("*,_", { write := ["_", "*"], move := ["<", "-"], nextState := "scan" })])] }

/-- The shuffled document is the crowded one in another order. -/
theorem Document.reordered_shuffled : Document.crowded.Reordered .shuffled := by
  refine {
    name := rfl
    description := rfl
    states := by decide
    inputAlphabet := by decide
    tapeAlphabet := by decide
    tapeCount := rfl
    initialState := rfl
    acceptingStates := by decide
    blank := rfl
    wildcard := rfl
    unchanged := rfl
    transitions := ⟨Document.shuffled.transitions.reverse, ?_, List.reverse_perm _⟩ }
  exact .cons ⟨rfl, by decide, by decide⟩ (.cons ⟨rfl, by decide, by decide⟩ .nil)

/-- The shuffled document numbers its states in reverse, and its machine shows the same as the
crowded one. -/
theorem Machine.crowded_order_is_immaterial :
    Document.crowded.Reordered .shuffled ∧ ∃ partner,
      Machine.ofDocument .shuffled = .ok partner ∧ partner.initial = 3 ∧
      ∀ config contents, Machine.crowded.observe config contents =
        partner.observe config contents := by
  obtain ⟨partner, partnerAccepted⟩ : ∃ partner, Machine.ofDocument .shuffled = .ok partner :=
    (declaration_order_is_immaterial Document.reordered_shuffled).1.mpr
      ⟨.crowded, Document.ofDocument_crowded⟩
  refine ⟨Document.reordered_shuffled, partner, partnerAccepted, ?_, ?_⟩
  · have declared := (start_of_ofDocument partnerAccepted).1
    have found : Document.shuffled.states[3]? = some "scan" := rfl
    exact (List.getElem?_inj (by decide) (by decide)).mp (found.trans declared.symm) |>.symm
  · exact (declaration_order_is_immaterial Document.reordered_shuffled).2 .crowded partner
      Document.ofDocument_crowded partnerAccepted

end TapeMachine
