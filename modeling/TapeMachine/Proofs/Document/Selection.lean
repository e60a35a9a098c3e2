import TapeMachine.Proofs.Document.Admissible
import TapeMachine.Proofs.Machine.FindRule

/-!
# Rules as they are written

`Document.ruleFor?` selects a rule from the texts of a document alone: the entry that spells the
symbols read without a wildcard, wherever it stands, or else the first entry that matches them. A
compiled machine finds the rule that this entry denotes.
-/

namespace TapeMachine

open Checks

namespace Document

/-- The rules written for a state. -/
def tableOf (document : Document) (name : String) : Table ActionRecord :=
  (Table.get? document.transitions name).getD []

/-- A written pattern has no wildcard and consists of the symbols read, one by one. -/
def Spells (document : Document) (symbols : List Char) (pattern : String) : Prop :=
  document.wildcard ∉ components pattern ∧ components pattern = symbols.map Char.toString

/-- A written pattern has as many components as symbols were read, and each of them is the wildcard
or the symbol at its position. -/
def Matches (document : Document) (symbols : List Char) (pattern : String) : Prop :=
  List.Forall₂ (fun component symbol =>
    component = document.wildcard ∨ component = symbol.toString) (components pattern) symbols

instance (document : Document) (symbols : List Char) (pattern : String) :
    Decidable (document.Spells symbols pattern) :=
  inferInstanceAs (Decidable (_ ∧ _))

instance (document : Document) (symbols : List Char) (pattern : String) :
    Decidable (document.Matches symbols pattern) :=
  inferInstanceAs (Decidable (List.Forall₂ _ _ _))

/-- The entry that a document has for a state and the symbols read: the one that spells the symbols,
or else the first that matches them. -/
def ruleFor? (document : Document) (name : String) (symbols : List Char) :
    Option (String × ActionRecord) :=
  ((document.tableOf name).find? fun entry => document.Spells symbols entry.1).or
    ((document.tableOf name).find? fun entry => document.Matches symbols entry.1)

/-! ## What entries denote -/

/-- The component that a token of a pattern denotes. -/
def DenotesComponent (document : Document) (token : String) : PatternSymbol → Prop
  | .any => token = document.wildcard
  | .literal symbol => token = symbol.toString ∧ token ≠ document.wildcard

/-- The write that a token of an action denotes. -/
def DenotesWrite (document : Document) (token : String) : Write → Prop
  | .keep => token = document.unchanged
  | .put symbol => token = symbol.toString ∧ token ≠ document.unchanged

/-- The rule that an entry of a table denotes, component by component. -/
structure Denotes (document : Document) (entry : String × ActionRecord) (rule : Rule) : Prop where
  pattern : List.Forall₂ document.DenotesComponent (components entry.1) rule.pattern
  writes : List.Forall₂ document.DenotesWrite entry.2.write rule.action.writes
  moves : List.Forall₂ (fun token direction => Direction.ofToken? token = some direction)
    entry.2.move rule.action.moves
  next : document.states[rule.action.next]? = some entry.2.nextState

variable {document : Document} {entry : String × ActionRecord} {rule : Rule} {symbols : List Char}

/-- A token denotes one write at most. -/
theorem denotesWrite_rightUnique (document : Document) :
    Relator.RightUnique document.DenotesWrite := by
  intro token first second firstDenoted secondDenoted
  cases first with
  | keep =>
      cases second with
      | keep => rfl
      | put symbol => exact absurd firstDenoted secondDenoted.2
  | put symbol =>
      cases second with
      | keep => exact absurd secondDenoted firstDenoted.2
      | put found =>
          have same : symbol.toString = found.toString :=
            firstDenoted.1.symm.trans secondDenoted.1
          rw [Text.toString_injective same]

/-- An entry denotes the same writes and movements in documents that leave a cell alone by the same
token. -/
theorem Denotes.effect_eq {other : Document} {partner : Rule}
    (unchanged : document.unchanged = other.unchanged) (denotes : document.Denotes entry rule)
    (others : other.Denotes entry partner) :
    rule.action.writes = partner.action.writes ∧ rule.action.moves = partner.action.moves := by
  have sameWrites : other.DenotesWrite = document.DenotesWrite := by
    funext token write
    cases write <;> simp only [DenotesWrite, unchanged]
  have writes := others.writes
  rw [sameWrites] at writes
  have functional : Relator.RightUnique fun (token : String) (direction : Direction) =>
      Direction.ofToken? token = some direction :=
    fun _ _ _ first second => Option.some.inj (first.symm.trans second)
  exact ⟨document.denotesWrite_rightUnique.forall₂ denotes.writes writes,
    functional.forall₂ denotes.moves others.moves⟩

/-- An entry spells the symbols of the rule without wildcard that it denotes. -/
theorem Denotes.spells_iff (denotes : document.Denotes entry rule) :
    document.Spells symbols entry.1 ↔ rule.pattern = symbols.map PatternSymbol.literal := by
  have spelled : document.Spells symbols entry.1 ↔
      List.Forall₂ (fun token symbol => token ≠ document.wildcard ∧ token = Char.toString symbol)
        (components entry.1) symbols := by
    rw [List.forall₂_and_left, Spells, ← List.forall₂_map_right_iff, List.forall₂_eq_eq_eq]
    simp only [ne_eq]
    grind
  have literal : rule.pattern = symbols.map PatternSymbol.literal ↔
      List.Forall₂ (fun component symbol => component = PatternSymbol.literal symbol)
        rule.pattern symbols := by
    rw [← List.forall₂_map_right_iff, List.forall₂_eq_eq_eq]
  rw [spelled, literal]
  refine forall₂_iff_of_forall₂ denotes.pattern fun token component symbol denotes => ?_
  cases component with
  | any =>
      have wildcard : token = document.wildcard := denotes
      simp [wildcard]
  | literal found =>
      obtain ⟨rfl, other⟩ := denotes
      rw [and_iff_right other, Text.toString_injective.eq_iff, PatternSymbol.literal.injEq]

/-- An entry matches what the rule that it denotes accepts. -/
theorem Denotes.matches_iff (denotes : document.Denotes entry rule) :
    document.Matches symbols entry.1 ↔ rule.pattern.accepts symbols := by
  rw [Matches, Pattern.accepts_iff]
  refine forall₂_iff_of_forall₂ denotes.pattern fun token component symbol denotes => ?_
  cases component with
  | any =>
      have wildcard : token = document.wildcard := denotes
      simp [wildcard]
  | literal found =>
      obtain ⟨rfl, other⟩ := denotes
      rw [or_iff_right other, Text.toString_injective.eq_iff, PatternSymbol.accepts_literal]

end Document

namespace Signature

variable {document : Document} {signature : Signature}

/-- A pattern is read from the written forms of its components. -/
theorem components_of_readPattern (proper : signature.Proper) {source text : String}
    {pattern : Pattern} (reads : signature.readPattern source text = .ok pattern) :
    Document.components text =
      pattern.map fun component => (component.written signature.wildcard).toString := by
  have law := fun component member result =>
    @readPatternSymbol_eq_ok signature proper source component result
      (@Text.separator_notMem_of_mem_splitOn _ text.toList component member)
  rw [readPattern] at reads
  split at reads
  · obtain ⟨-, words⟩ := (mapM_eq_ok_of_written law).mp reads
    rw [Document.components_eq, words, List.map_map]
    rfl
  · cases reads

/-- An entry denotes the rule as which it is read. -/
theorem denotes_of_readsRule (proper : signature.Proper) (spelled : Spelled document signature)
    {source : String} {entry : String × ActionRecord} {rule : Rule}
    (reads : signature.ReadsRule source entry rule) : document.Denotes entry rule := by
  have heading := spelled.properHeading proper
  obtain ⟨-, allowed, -⟩ := (readPattern_eq_ok proper).mp reads.1
  obtain ⟨-, -, allowedWrites, writes, moves, next⟩ := (readAction_eq_ok proper).mp reads.2
  constructor
  · rw [components_of_readPattern proper reads.1, List.forall₂_map_left_iff]
    refine List.forall₂_same.mpr fun component listed => ?_
    cases component with
    | any => exact spelled.wildcard.symm
    | literal symbol =>
        have inside := spelled.toString_mem.mpr (allowed _ listed)
        exact ⟨rfl, fun same => heading.wildcard (same ▸ inside)⟩
  · rw [writes, List.forall₂_map_left_iff]
    refine List.forall₂_same.mpr fun write listed => ?_
    cases write with
    | keep => exact spelled.unchanged.symm
    | put symbol =>
        have inside := spelled.toString_mem.mpr (allowedWrites _ listed)
        exact ⟨rfl, fun same => heading.unchanged (same ▸ inside)⟩
  · exact moves
  · rw [spelled.states]
    exact getElem?_of_readState next

end Signature

namespace Machine

variable {document : Document} {machine : Machine}

/-- The rules of a state are read from the table that its document has for the state. -/
theorem readRules_tableOf (accepted : Machine.ofDocument document = .ok machine) {state : Nat}
    {name : String} (declared : document.states[state]? = some name) :
    machine.signature.readRules name [] (document.tableOf name) = .ok (machine.rulesOf state) := by
  obtain ⟨signature, initial, tables, -, spelled, -, -, readsAll, rfl⟩ :=
    ofDocument_eq_ok.mp accepted
  have rules : (compiled document signature initial tables).rulesOf state =
      (Table.get? tables name).getD [] := by
    simp [rulesOf, compiled, declared]
  obtain ⟨_, rfl, reads, -, -⟩ := Signature.readTables_eq_ok.mp readsAll
  have found : Option.Rel signature.ReadsTable (document.transitions.find? (·.1 == name))
      (tables.find? (·.1 == name)) :=
    rel_find? reads fun table rules read => by rw [read.1]
  have written : ∀ table, document.transitions.find? (·.1 == name) = some table → table.1 = name :=
    fun table selected => by simpa using List.find?_some selected
  rw [rules, signature_compiled spelled, Document.tableOf, Table.get?, Table.get?]
  generalize document.transitions.find? (·.1 == name) = table at found written ⊢
  generalize tables.find? (·.1 == name) = read at found ⊢
  cases found with
  | none => rfl
  | some pair =>
      obtain ⟨-, -, readsRules⟩ := pair
      rwa [written _ rfl] at readsRules

/-- The entries written for a state denote its rules, in order. -/
theorem denotes_rulesOf (accepted : Machine.ofDocument document = .ok machine) {state : Nat}
    {name : String} (declared : document.states[state]? = some name) :
    List.Forall₂ document.Denotes (document.tableOf name) (machine.rulesOf state) := by
  obtain ⟨_, same, entries, -⟩ := Signature.readRules_eq_ok.mp (readRules_tableOf accepted declared)
  rw [same]
  exact entries.imp fun entry rule => Signature.denotes_of_readsRule
    (wellFormed_of_ofDocument accepted).proper (spelled_of_ofDocument accepted)

/-- The rule that is found is denoted by the entry that the document has for the state and the
symbols. -/
theorem rel_ruleFor? (accepted : Machine.ofDocument document = .ok machine) {state : Nat}
    {name : String} (declared : document.states[state]? = some name) (symbols : List Char) :
    Option.Rel document.Denotes (document.ruleFor? name symbols)
      (machine.findRule? state symbols) := by
  have denoted := denotes_rulesOf accepted declared
  rw [Document.ruleFor?, findRule?_eq_or, (wellFormed_of_ofDocument accepted).exactRule?_eq_find?]
  apply rel_or
  · refine rel_find? denoted fun entry rule denotes => ?_
    rw [Bool.eq_iff_iff, decide_eq_true_iff, denotes.spells_iff, beq_iff_eq]
  · refine rel_find? denoted fun entry rule denotes => ?_
    rw [Bool.eq_iff_iff, decide_eq_true_iff, denotes.matches_iff]

/-- A compiled machine selects rules as its document reads: in every declared state and for any
symbols, it finds the rule that is denoted by the entry which spells the symbols, of which there is
at most one, or else by the first entry which matches them, and none where there is no such
entry. -/
theorem findRule?_follows_document {document : Document} {machine : Machine}
    (accepted : Machine.ofDocument document = .ok machine) {state : Nat} {name : String}
    (declared : document.states[state]? = some name) (symbols : List Char) :
    Option.Rel document.Denotes (document.ruleFor? name symbols)
      (machine.findRule? state symbols) ∧
    List.Forall₂ document.Denotes (document.tableOf name) (machine.rulesOf state) ∧
    ∀ (first second : Nat) (entry other : String × ActionRecord),
      (document.tableOf name)[first]? = some entry →
      (document.tableOf name)[second]? = some other →
      document.Spells symbols entry.1 → document.Spells symbols other.1 → first = second := by
  have wellFormed := wellFormed_of_ofDocument accepted
  have denoted := denotes_rulesOf accepted declared
  refine ⟨rel_ruleFor? accepted declared symbols, denoted, ?_⟩
  intro first second entry other firstListed secondListed firstSpells secondSpells
  obtain ⟨rule, firstRule, denotes⟩ :=
    exists_getElem?_of_forall₂ (List.Forall₂.flip denoted) firstListed
  obtain ⟨otherRule, secondRule, otherDenotes⟩ :=
    exists_getElem?_of_forall₂ (List.Forall₂.flip denoted) secondListed
  have same : rule.pattern = otherRule.pattern := by
    rw [Document.Denotes.spells_iff denotes] at firstSpells
    rw [Document.Denotes.spells_iff otherDenotes] at secondSpells
    rw [firstSpells, secondSpells]
  have inside : first < ((machine.rulesOf state).map (·.pattern)).length := by
    rw [List.length_map]
    exact (List.getElem?_eq_some_iff.mp firstRule).1
  apply (List.getElem?_inj inside (wellFormed.distinct_rulesOf state)).mp
  rw [List.getElem?_map, List.getElem?_map, firstRule, secondRule]
  exact congrArg some same

end Machine

/-- A document with a rule that never fires, a state that is never entered and a state in which
nothing can happen. -/
def Document.crowded : Document where
  name := "Crowded"
  description := ""
  states := ["scan", "halt", "stuck", "island"]
  inputAlphabet := ["a"]
  tapeAlphabet := ["a", "_"]
  tapeCount := 2
  initialState := "scan"
  acceptingStates := ["halt"]
  blank := "_"
  wildcard := "*"
  unchanged := "*"
  transitions := [
    ("scan", [
      ("a,*", { write := ["*", "*"], move := ["R", "R"], nextState := "scan" }),
      ("*,*", { write := ["*", "a"], move := ["S", "S"], nextState := "stuck" }),
      ("*,_", { write := ["_", "*"], move := ["<", "-"], nextState := "scan" }),
      ("a,a", { write := ["_", "_"], move := ["L", ">"], nextState := "halt" })]),
    ("island", [("_,_", { write := ["*", "*"], move := ["R", "S"], nextState := "halt" })])]

/-- The machine of the crowded document. -/
def Machine.crowded : Machine where
  name := "Crowded"
  summary := ""
  states := #[
    { name := "scan"
      accepting := false
      rules := [
        { pattern := [.literal 'a', .any]
          action := { writes := [.keep, .keep], moves := [.right, .right], next := 0 } },
        { pattern := [.any, .any]
          action := { writes := [.keep, .put 'a'], moves := [.stay, .stay], next := 2 } },
        { pattern := [.any, .literal '_']
          action := { writes := [.put '_', .keep], moves := [.left, .stay], next := 0 } },
        { pattern := [.literal 'a', .literal 'a']
          action := { writes := [.put '_', .put '_'], moves := [.left, .right], next := 1 } }] },
    { name := "halt", accepting := true, rules := [] },
    { name := "stuck", accepting := false, rules := [] },
    { name := "island"
      accepting := false
      rules := [
        { pattern := [.literal '_', .literal '_']
          action := { writes := [.keep, .keep], moves := [.right, .stay], next := 1 } }] }]
  inputAlphabet := ['a']
  tapeAlphabet := ['a', '_']
  tapeCount := 2
  blank := '_'
  wildcard := '*'
  unchanged := '*'
  initial := 0

/-- The crowded document compiles to the crowded machine. -/
theorem Document.ofDocument_crowded : Machine.ofDocument .crowded = .ok .crowded := by
  rfl

/-- The last entry of a table is selected where it spells the symbols, before two earlier entries
that match them. -/
theorem Machine.findRule?_follows_crowded :
    Machine.ofDocument .crowded = .ok .crowded ∧ Document.crowded.states[0]? = some "scan" ∧
      Option.Rel Document.crowded.Denotes
        (some ("a,a", { write := ["_", "_"], move := ["L", ">"], nextState := "halt" }))
        (Machine.crowded.findRule? 0 ['a', 'a']) := by
  have selected : Document.crowded.ruleFor? "scan" ['a', 'a'] =
      some ("a,a", { write := ["_", "_"], move := ["L", ">"], nextState := "halt" }) := by
    decide
  have declared : Document.crowded.states[0]? = some "scan" := rfl
  obtain ⟨follows, -⟩ :=
    Machine.findRule?_follows_document Document.ofDocument_crowded declared ['a', 'a']
  rw [selected] at follows
  exact ⟨Document.ofDocument_crowded, declared, follows⟩

end TapeMachine
