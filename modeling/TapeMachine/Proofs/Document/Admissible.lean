import Mathlib.Data.List.Nodup
import Mathlib.Data.Set.List
import TapeMachine.Load
import TapeMachine.Proofs.Machine.WellFormed
import TapeMachine.Proofs.Text

/-!
# Documents that describe machines

`Document.Admissible` lists what a document has to satisfy, token by token and without a word about
how it is read. `Machine.exists_ofDocument_iff` says that compiling accepts exactly these documents.
The proof follows the document: its heading, its patterns and actions, its tables.
-/

namespace TapeMachine

open Checks

namespace Document

/-- The components of a written pattern. -/
def components (pattern : String) : List String :=
  (pattern.toList.splitOn ',').map String.ofList

/-- The components of a pattern stand between its separators. -/
theorem components_eq (pattern : String) :
    components pattern = (Text.splitOn Pattern.separator pattern.toList).map String.ofList := by
  rw [Text.splitOn_eq_splitOn]
  rfl

/-- What a heading has to satisfy: tapes, states, tokens of one character and proper alphabets. -/
structure ProperHeading (document : Document) : Prop where
  tapes : 1 ≤ document.tapeCount
  states : document.states ≠ []
  named : "" ∉ document.states
  distinctStates : document.states.Nodup
  blankToken : document.blank.length = 1
  wildcardToken : document.wildcard.length = 1
  unchangedToken : document.unchanged.length = 1
  tapeTokens : ∀ token ∈ document.tapeAlphabet, token.length = 1
  inputTokens : ∀ token ∈ document.inputAlphabet, token.length = 1
  distinctTape : document.tapeAlphabet.Nodup
  distinctInput : document.inputAlphabet.Nodup
  input : ∀ token ∈ document.inputAlphabet, token ∈ document.tapeAlphabet
  blank : document.blank ∈ document.tapeAlphabet
  wildcard : document.wildcard ∉ document.tapeAlphabet
  unchanged : document.unchanged ∉ document.tapeAlphabet
  separator : "," ∉ document.tapeAlphabet

/-- A token of a rule: one character, either `placeholder` or a tape symbol. -/
def AdmitsToken (document : Document) (placeholder token : String) : Prop :=
  token.length = 1 ∧ (token = placeholder ∨ token ∈ document.tapeAlphabet)

/-- What a rule has to satisfy: one component, write and movement for each tape, and a declared
next state. -/
structure AdmitsRule (document : Document) (pattern : String) (record : ActionRecord) : Prop where
  componentCount : (components pattern).length = document.tapeCount
  components : ∀ token ∈ components pattern, document.AdmitsToken document.wildcard token
  writeCount : record.write.length = document.tapeCount
  writes : ∀ token ∈ record.write, document.AdmitsToken document.unchanged token
  moveCount : record.move.length = document.tapeCount
  moves : ∀ token ∈ record.move, token ∈ ["L", "R", "S", "<", ">", "-"]
  next : record.nextState ∈ document.states

/-- What a document has to satisfy to describe a machine. -/
structure Admissible (document : Document) : Prop where
  heading : document.ProperHeading
  initial : document.initialState ∈ document.states
  accepting : ∀ name ∈ document.acceptingStates, name ∈ document.states
  sources : ∀ table ∈ document.transitions, table.1 ∈ document.states
  distinctSources : (Table.keys document.transitions).Nodup
  rules : ∀ table ∈ document.transitions, ∀ rule ∈ table.2, document.AdmitsRule rule.1 rule.2
  distinctPatterns : ∀ table ∈ document.transitions, (Table.keys table.2).Nodup

end Document

/-! ## The heading -/

/-- A token of one character tells the character. -/
theorem Text.toString_injective : Function.Injective Char.toString := by
  intro first second same
  rwa [Char.toString_eq_singleton, Char.toString_eq_singleton, String.singleton_inj] at same

/-- A text has one character exactly when it is the text of a character. -/
theorem Text.length_eq_one {token : String} :
    token.length = 1 ↔ ∃ symbol : Char, token = symbol.toString := by
  rw [← String.length_toList, List.length_eq_one_iff]
  simp only [← String.toList_inj, Char.toString_eq_singleton, String.toList_singleton]

/-- Tokens of one character each spell characters. -/
theorem Text.exists_map_toString {tokens : List String}
    (single : ∀ token ∈ tokens, token.length = 1) :
    ∃ symbols : List Char, tokens = symbols.map Char.toString := by
  have spelled : tokens ∈ Set.range (List.map Char.toString) := by
    rw [Set.range_list_map]
    intro token member
    obtain ⟨symbol, rfl⟩ := length_eq_one.mp (single token member)
    exact ⟨symbol, rfl⟩
  obtain ⟨symbols, rfl⟩ := spelled
  exact ⟨symbols, rfl⟩

namespace Signature

variable {document : Document} {signature : Signature}

/-- The tape symbols of a machine are the tape tokens of its document. -/
theorem Spelled.toString_mem (spelled : Spelled document signature) {symbol : Char} :
    symbol.toString ∈ document.tapeAlphabet ↔ symbol ∈ signature.tapeAlphabet := by
  rw [spelled.tapeAlphabet, List.mem_map_of_injective Text.toString_injective]

/-- The heading of a proper signature is proper. -/
theorem Spelled.properHeading (spelled : Spelled document signature) (proper : signature.Proper) :
    document.ProperHeading := by
  have single (symbol : Char) : symbol.toString.length = 1 := Text.length_eq_one.mpr ⟨symbol, rfl⟩
  have singles (symbols : List Char) : ∀ token ∈ symbols.map Char.toString, token.length = 1 := by
    intro token member
    obtain ⟨symbol, -, rfl⟩ := List.mem_map.mp member
    exact single symbol
  have input : ∀ token ∈ document.inputAlphabet, token ∈ document.tapeAlphabet := by
    intro token member
    rw [spelled.inputAlphabet] at member
    obtain ⟨symbol, listed, rfl⟩ := List.mem_map.mp member
    exact spelled.toString_mem.mpr (proper.input symbol listed)
  exact {
    tapes := spelled.tapeCount ▸ proper.tapes
    states := spelled.states ▸ proper.states
    named := spelled.states ▸ proper.named
    distinctStates := spelled.states ▸ proper.distinctStates
    blankToken := spelled.blank ▸ single signature.blank
    wildcardToken := spelled.wildcard ▸ single signature.wildcard
    unchangedToken := spelled.unchanged ▸ single signature.unchanged
    tapeTokens := spelled.tapeAlphabet ▸ singles signature.tapeAlphabet
    inputTokens := spelled.inputAlphabet ▸ singles signature.inputAlphabet
    distinctTape := spelled.tapeAlphabet ▸ proper.distinctTape.map Text.toString_injective
    distinctInput := spelled.inputAlphabet ▸ proper.distinctInput.map Text.toString_injective
    input := input
    blank := spelled.blank ▸ spelled.toString_mem.mpr proper.blank
    wildcard := spelled.wildcard ▸ mt spelled.toString_mem.mp proper.wildcard
    unchanged := spelled.unchanged ▸ mt spelled.toString_mem.mp proper.unchanged
    separator := fun listed => proper.separator (spelled.toString_mem.mp listed) }

/-- A proper heading spells out a proper signature. -/
theorem exists_spelled (heading : document.ProperHeading) :
    ∃ signature : Signature, signature.Proper ∧ Spelled document signature := by
  obtain ⟨blank, blankText⟩ := Text.length_eq_one.mp heading.blankToken
  obtain ⟨wildcard, wildcardText⟩ := Text.length_eq_one.mp heading.wildcardToken
  obtain ⟨unchanged, unchangedText⟩ := Text.length_eq_one.mp heading.unchangedToken
  obtain ⟨tape, tapeText⟩ := Text.exists_map_toString heading.tapeTokens
  obtain ⟨input, inputText⟩ := Text.exists_map_toString heading.inputTokens
  let signature : Signature :=
    { tapeCount := document.tapeCount, states := document.states
      blank, wildcard, unchanged, tapeAlphabet := tape, inputAlphabet := input }
  have spelled : Spelled document signature :=
    ⟨rfl, rfl, blankText, wildcardText, unchangedText, tapeText, inputText⟩
  have inputInside : ∀ symbol ∈ input, symbol ∈ tape := by
    intro symbol listed
    have token : symbol.toString ∈ document.inputAlphabet := by
      rw [inputText]
      exact List.mem_map_of_mem listed
    exact spelled.toString_mem.mp (heading.input _ token)
  have proper : signature.Proper := {
    tapes := heading.tapes
    states := heading.states
    named := heading.named
    distinctStates := heading.distinctStates
    distinctTape := .of_map Char.toString (tapeText ▸ heading.distinctTape)
    distinctInput := .of_map Char.toString (inputText ▸ heading.distinctInput)
    input := inputInside
    blank := spelled.toString_mem.mp (blankText ▸ heading.blank)
    wildcard := mt spelled.toString_mem.mpr (wildcardText ▸ heading.wildcard)
    unchanged := mt spelled.toString_mem.mpr (unchangedText ▸ heading.unchanged)
    separator := mt spelled.toString_mem.mpr heading.separator }
  exact ⟨signature, proper, spelled⟩

/-! ## Rules -/

/-- A movement can be read from six tokens. -/
theorem exists_readMove {source pattern token : String} :
    (∃ direction, readMove source pattern token = .ok direction) ↔
      token ∈ ["L", "R", "S", "<", ">", "-"] := by
  simp only [readMove_eq_ok]
  constructor
  · rintro ⟨direction, read⟩
    rw [Direction.ofToken?] at read
    grind
  · intro listed
    simp only [List.mem_cons, List.not_mem_nil, or_false] at listed
    rcases listed with rfl | rfl | rfl | rfl | rfl | rfl
    exacts [⟨.left, rfl⟩, ⟨.right, rfl⟩, ⟨.stay, rfl⟩, ⟨.left, rfl⟩, ⟨.right, rfl⟩, ⟨.stay, rfl⟩]

section Rules

variable (proper : signature.Proper) (spelled : Spelled document signature)

include proper spelled

/-- The placeholder and the tape symbols have one character anyway. -/
theorem admitsToken_iff {placeholder token : String} (single : placeholder.length = 1) :
    document.AdmitsToken placeholder token ↔
      token = placeholder ∨ token ∈ document.tapeAlphabet := by
  constructor
  · exact And.right
  · intro allowed
    refine ⟨?_, allowed⟩
    rcases allowed with rfl | listed
    · exact single
    · exact (spelled.properHeading proper).tapeTokens token listed

/-- A write can be read from the admitted tokens. -/
theorem exists_readWrite {source token : String} :
    (∃ write, signature.readWrite source token = .ok write) ↔
      document.AdmitsToken document.unchanged token := by
  rw [admitsToken_iff proper spelled (spelled.properHeading proper).unchangedToken]
  simp only [readWrite_eq_ok proper]
  constructor
  · rintro ⟨write, allowed, rfl⟩
    cases write with
    | keep => exact .inl spelled.unchanged.symm
    | put symbol => exact .inr (spelled.toString_mem.mpr allowed)
  · rintro (rfl | listed)
    · exact ⟨.keep, trivial, spelled.unchanged⟩
    · rw [spelled.tapeAlphabet] at listed
      obtain ⟨symbol, inside, rfl⟩ := List.mem_map.mp listed
      exact ⟨.put symbol, inside, rfl⟩

/-- A component can be read from the admitted tokens. -/
theorem exists_readPatternSymbol {source : String} {component : List Char}
    (unsplit : Pattern.separator ∉ component) :
    (∃ symbol, signature.readPatternSymbol source component = .ok symbol) ↔
      document.AdmitsToken document.wildcard (String.ofList component) := by
  have token {symbol : Char} :
      component = [symbol] ↔ String.ofList component = symbol.toString := by
    rw [← String.toList_inj, String.toList_ofList, Char.toString_eq_singleton,
      String.toList_singleton]
  rw [admitsToken_iff proper spelled (spelled.properHeading proper).wildcardToken]
  simp only [readPatternSymbol_eq_ok proper unsplit, token]
  constructor
  · rintro ⟨symbol, allowed, spelling⟩
    rw [spelling]
    cases symbol with
    | any => exact .inl spelled.wildcard.symm
    | literal symbol => exact .inr (spelled.toString_mem.mpr allowed)
  · rintro (wildcard | listed)
    · refine ⟨.any, ?_, wildcard.trans spelled.wildcard⟩
      rintro separator
      rw [spelled.wildcard, ← token, separator] at wildcard
      simp [wildcard] at unsplit
    · rw [spelled.tapeAlphabet] at listed
      obtain ⟨symbol, inside, spelling⟩ := List.mem_map.mp listed
      exact ⟨.literal symbol, inside, spelling.symm⟩

/-- A pattern can be read from a text whose components are admitted, one for each tape. -/
theorem exists_readPattern {source text : String} :
    (∃ pattern, signature.readPattern source text = .ok pattern) ↔
      (Document.components text).length = document.tapeCount ∧
        ∀ token ∈ Document.components text, document.AdmitsToken document.wildcard token := by
  have words := Document.components_eq text
  have components : (∃ pattern, (Text.splitOn Pattern.separator text.toList).mapM
        (signature.readPatternSymbol source) = .ok pattern) ↔
      ∀ token ∈ Document.components text, document.AdmitsToken document.wildcard token := by
    rw [exists_mapM_eq_ok, words, List.forall_mem_map]
    exact forall₂_congr fun component member =>
      exists_readPatternSymbol proper spelled (Text.separator_notMem_of_mem_splitOn member)
  rw [← components, words, List.length_map, spelled.tapeCount]
  simp only [readPattern]
  split
  · next arity => simp [arity]
  · next arity => simp [arity]

/-- An action can be read from a record with an admitted write and a movement for each tape and with
a declared next state. -/
theorem exists_readAction {source pattern : String} {record : ActionRecord} :
    (∃ action, signature.readAction source pattern record = .ok action) ↔
      record.write.length = document.tapeCount ∧
      (∀ token ∈ record.write, document.AdmitsToken document.unchanged token) ∧
      record.move.length = document.tapeCount ∧
      (∀ token ∈ record.move, token ∈ ["L", "R", "S", "<", ">", "-"]) ∧
      record.nextState ∈ document.states := by
  have writes : (∃ writes, record.write.mapM (signature.readWrite source) = .ok writes) ↔
      ∀ token ∈ record.write, document.AdmitsToken document.unchanged token := by
    rw [exists_mapM_eq_ok]
    exact forall₂_congr fun token _ => exists_readWrite proper spelled
  have moves : (∃ moves, record.move.mapM (readMove source pattern) = .ok moves) ↔
      ∀ token ∈ record.move, token ∈ ["L", "R", "S", "<", ">", "-"] := by
    rw [exists_mapM_eq_ok]
    exact forall₂_congr fun token _ => exists_readMove
  have next := @exists_readState signature .next record.nextState
  rw [← writes, ← moves, spelled.tapeCount, spelled.states, ← next]
  simp only [readAction]
  split
  · next arity =>
      constructor
      · rintro ⟨action, refused⟩
        simp at refused
      · rintro ⟨writeCount, -, moveCount, -⟩
        omega
  · next arity =>
      simp only [bind_eq_ok, pure_eq_ok]
      constructor
      · rintro ⟨action, writes, readsWrites, moves, readsMoves, next, readsNext, -⟩
        exact ⟨by omega, ⟨writes, readsWrites⟩, by omega, ⟨moves, readsMoves⟩, ⟨next, readsNext⟩⟩
      · rintro ⟨-, ⟨writes, readsWrites⟩, -, ⟨moves, readsMoves⟩, ⟨next, readsNext⟩⟩
        exact ⟨_, writes, readsWrites, moves, readsMoves, next, readsNext, rfl⟩

/-- A rule can be read from an entry of a table exactly when the document admits it. -/
theorem exists_readsRule {source : String} {entry : String × ActionRecord} :
    (∃ rule, signature.ReadsRule source entry rule) ↔ document.AdmitsRule entry.1 entry.2 := by
  have pattern := @exists_readPattern _ _ proper spelled source entry.1
  have action := @exists_readAction _ _ proper spelled source entry.1 entry.2
  constructor
  · rintro ⟨rule, readsPattern, readsAction⟩
    obtain ⟨componentCount, components⟩ := pattern.mp ⟨_, readsPattern⟩
    obtain ⟨writeCount, writes, moveCount, moves, next⟩ := action.mp ⟨_, readsAction⟩
    exact ⟨componentCount, components, writeCount, writes, moveCount, moves, next⟩
  · intro admitted
    obtain ⟨pattern, readsPattern⟩ :=
      pattern.mpr ⟨admitted.componentCount, admitted.components⟩
    obtain ⟨action, readsAction⟩ :=
      action.mpr ⟨admitted.writeCount, admitted.writes, admitted.moveCount, admitted.moves,
        admitted.next⟩
    exact ⟨{ pattern, action }, readsPattern, readsAction⟩

omit spelled in
/-- Rules have different patterns exactly when they are read from different texts. -/
theorem nodup_patterns_iff {source : String} {table : Table ActionRecord} {rules : List Rule}
    (reads : List.Forall₂ (signature.ReadsRule source) table rules) :
    (rules.map (·.pattern)).Nodup ↔ (Table.keys table).Nodup := by
  have keys : Table.keys table =
      (rules.map (·.pattern)).map (Pattern.render · signature.wildcard) := by
    rw [List.map_map]
    symm
    apply map_eq_of_forall₂
    rw [Table.keys, List.forall₂_map_left_iff]
    exact reads.imp fun entry rule read => ((readPattern_eq_ok proper).mp read.1).2.2
  rw [keys]
  constructor
  · intro distinct
    refine distinct.map_on ?_
    simp only [List.forall_mem_map]
    intro first firstListed second secondListed same
    obtain ⟨_, -, firstReads⟩ := exists_mem_of_forall₂ reads firstListed
    obtain ⟨_, -, secondReads⟩ := exists_mem_of_forall₂ reads secondListed
    have firstAllowed := allowsRule_of_readsRule proper firstReads
    have secondAllowed := allowsRule_of_readsRule proper secondReads
    exact (render_inj proper firstAllowed.components firstAllowed.pattern
      secondAllowed.components secondAllowed.pattern).mp same
  · exact .of_map _

/-- The rules of a state can be read exactly when the document admits each of them and no two have
the same pattern. -/
theorem exists_readRules {source : String} {table : Table ActionRecord} :
    (∃ rules, signature.readRules source [] table = .ok rules) ↔
      (∀ rule ∈ table, document.AdmitsRule rule.1 rule.2) ∧ (Table.keys table).Nodup := by
  have admitted : (∃ rules, List.Forall₂ (signature.ReadsRule source) table rules) ↔
      ∀ rule ∈ table, document.AdmitsRule rule.1 rule.2 := by
    rw [exists_forall₂]
    exact forall₂_congr fun entry _ => exists_readsRule proper spelled
  rw [← admitted]
  constructor
  · rintro ⟨rules, accepted⟩
    obtain ⟨_, rfl, reads, distinct, -⟩ := readRules_eq_ok.mp accepted
    exact ⟨⟨_, reads⟩, (nodup_patterns_iff proper reads).mp distinct⟩
  · rintro ⟨⟨rules, reads⟩, distinct⟩
    have patterns := (nodup_patterns_iff proper reads).mpr distinct
    exact ⟨rules, readRules_eq_ok.mpr ⟨rules, rfl, reads, patterns, by simp⟩⟩

/-- The tables of a document can be read exactly when each of them can, under different declared
names. -/
theorem exists_readTables {tables : Table (Table ActionRecord)} :
    (∃ rules, signature.readTables [] tables = .ok rules) ↔
      (∀ table ∈ tables, table.1 ∈ document.states) ∧ (Table.keys tables).Nodup ∧
      (∀ table ∈ tables, ∀ rule ∈ table.2, document.AdmitsRule rule.1 rule.2) ∧
      ∀ table ∈ tables, (Table.keys table.2).Nodup := by
  have admitted : (∃ rules, List.Forall₂ signature.ReadsTable tables rules) ↔
      ∀ table ∈ tables, table.1 ∈ document.states ∧
        (∀ rule ∈ table.2, document.AdmitsRule rule.1 rule.2) ∧ (Table.keys table.2).Nodup := by
    rw [exists_forall₂]
    refine forall₂_congr fun table _ => ?_
    rw [← exists_readRules proper spelled, spelled.states]
    constructor
    · rintro ⟨rules, -, declared, reads⟩
      exact ⟨declared, rules.2, reads⟩
    · rintro ⟨declared, rules, reads⟩
      exact ⟨(table.1, rules), rfl, declared, reads⟩
  have keys {rules : Table (List Rule)} (reads : List.Forall₂ signature.ReadsTable tables rules) :
      Table.keys tables = Table.keys rules := by
    symm
    apply map_eq_of_forall₂
    rw [Table.keys, List.forall₂_map_left_iff]
    exact reads.imp fun table rules read => read.1
  constructor
  · rintro ⟨rules, accepted⟩
    obtain ⟨_, rfl, reads, distinct, -⟩ := readTables_eq_ok.mp accepted
    have each := admitted.mp ⟨_, reads⟩
    rw [← keys reads] at distinct
    exact ⟨fun table member => (each table member).1, distinct,
      fun table member => (each table member).2.1, fun table member => (each table member).2.2⟩
  · rintro ⟨sources, distinct, rules, patterns⟩
    obtain ⟨result, reads⟩ := admitted.mpr fun table member =>
      ⟨sources table member, rules table member, patterns table member⟩
    rw [keys reads] at distinct
    exact ⟨result, readTables_eq_ok.mpr ⟨result, rfl, reads, distinct, by simp [Table.keys]⟩⟩

end Rules

end Signature

/-! ## Whole documents -/

/-- A document gives a machine exactly when it is admissible. -/
theorem Machine.exists_ofDocument_iff {document : Document} :
    (∃ machine, Machine.ofDocument document = .ok machine) ↔ document.Admissible := by
  simp only [Machine.ofDocument_eq_ok]
  constructor
  · rintro ⟨_, signature, initial, tables, proper, spelled, start, accepting, rules, -⟩
    have declared : document.initialState ∈ signature.states :=
      Signature.exists_readState.mp ⟨initial, start⟩
    obtain ⟨sources, distinctSources, admitted, distinctPatterns⟩ :=
      (Signature.exists_readTables proper spelled).mp ⟨tables, rules⟩
    rw [← spelled.states] at declared accepting
    exact ⟨spelled.properHeading proper, declared, accepting, sources, distinctSources, admitted,
      distinctPatterns⟩
  · rintro ⟨heading, declared, accepting, sources, distinctSources, admitted, distinctPatterns⟩
    obtain ⟨signature, proper, spelled⟩ := Signature.exists_spelled heading
    rw [spelled.states] at declared accepting
    obtain ⟨initial, start⟩ := (@Signature.exists_readState signature .initial _).mpr declared
    obtain ⟨tables, rules⟩ := (Signature.exists_readTables proper spelled).mpr
      ⟨sources, distinctSources, admitted, distinctPatterns⟩
    exact ⟨_, signature, initial, tables, proper, spelled, start, accepting, rules, rfl⟩

/-- Compiling accepts exactly the admissible documents, and reports every other document as a
malformed description. -/
theorem document_compiles_iff_admissible (document : Document) :
    ((∃ machine, Machine.ofDocument document = .ok machine) ↔ document.Admissible) ∧
      (¬ document.Admissible → ∃ defect, Machine.ofDocument document = .error defect ∧
        (LoadError.defect defect).message = "Malformed description: " ++ defect.message) := by
  refine ⟨Machine.exists_ofDocument_iff, fun inadmissible => ?_⟩
  cases compiled : Machine.ofDocument document with
  | ok machine => exact absurd (Machine.exists_ofDocument_iff.mp ⟨machine, compiled⟩) inadmissible
  | error defect => exact ⟨defect, rfl, rfl⟩

end TapeMachine
