import TapeMachine.Proofs.Machine.Heading

/-!
# What the rules of a document say

Reading a pattern undoes writing it: `Signature.readPattern_eq_ok` says that a text is read as a
pattern exactly when it is the pattern's written form and the signature allows the pattern. Writes
obey the same law; movements have two spellings, so their tokens are only known up to
`Direction.ofToken?`. Tables of rules are then read entry by entry.
-/

namespace TapeMachine

open Checks

namespace Text

/-- A text has an empty first word when it is empty or starts with the separator. -/
theorem splitOn_eq_nil_cons {separator : Char} {text : List Char} {words : List (List Char)} :
    splitOn separator text = [] :: words ↔
      (text = [] ∧ words = []) ∨
        ∃ rest, text = separator :: rest ∧ splitOn separator rest = words := by
  cases text with
  | nil => simp
  | cons c text =>
      rw [splitOn_cons]
      split
      · next same => simp [same]
      · next other =>
          cases split : splitOn separator text <;> simp [consWord, other]

/-- No word holds the separator. -/
theorem separator_notMem_of_mem_splitOn {separator : Char} {text word : List Char}
    (member : word ∈ splitOn separator text) : separator ∉ word := by
  induction text generalizing word with
  | nil => simp_all
  | cons c text ih =>
      rw [splitOn_cons] at member
      split at member
      · grind
      · next other =>
          cases split : splitOn separator text with
          | nil => exact absurd split (splitOn_ne_nil separator text)
          | cons first words =>
              rw [split, consWord] at member
              grind

/-- The words of a text are single characters exactly when the text joins these characters. -/
theorem splitOn_eq_singletons {separator : Char} {text symbols : List Char} :
    splitOn separator text = symbols.map (fun symbol => [symbol]) ↔
      symbols ≠ [] ∧ separator ∉ symbols ∧ text = symbols.intersperse separator := by
  induction symbols generalizing text with
  | nil => simp [splitOn_ne_nil]
  | cons symbol symbols ih =>
      cases text with
      | nil => cases symbols <;> simp
      | cons c text =>
          rw [splitOn_cons, List.map_cons]
          split
          · next same =>
              subst same
              cases symbols <;> simp <;> grind
          · next other =>
              obtain ⟨word, words, split⟩ :=
                List.exists_cons_of_ne_nil (splitOn_ne_nil separator text)
              have shape : consWord c (splitOn separator text) =
                    [symbol] :: symbols.map (fun symbol => [symbol]) ↔
                  c = symbol ∧
                    splitOn separator text = [] :: symbols.map (fun symbol => [symbol]) := by
                rw [split]
                simp [consWord]
                grind
              rw [shape, splitOn_eq_nil_cons]
              cases symbols with
              | nil => simp; grind
              | cons next symbols =>
                  simp only [ih]
                  simp
                  grind

end Text

namespace Signature

/-- The components that a signature allows in patterns. A wildcard that is the separator cannot be
written, since it would split the pattern. -/
def AllowsComponent (signature : Signature) : PatternSymbol → Prop
  | .any => signature.wildcard ≠ Pattern.separator
  | .literal symbol => symbol ∈ signature.tapeAlphabet

/-- The writes that a signature allows in actions. -/
def AllowsWrite (signature : Signature) : Write → Prop
  | .keep => True
  | .put symbol => symbol ∈ signature.tapeAlphabet

/-- A rule names one allowed component, write and movement for each tape and a declared state. -/
structure AllowsRule (signature : Signature) (rule : Rule) : Prop where
  components : rule.pattern.length = signature.tapeCount
  pattern : ∀ component ∈ rule.pattern, signature.AllowsComponent component
  writeCount : rule.action.writes.length = signature.tapeCount
  writes : ∀ write ∈ rule.action.writes, signature.AllowsWrite write
  moveCount : rule.action.moves.length = signature.tapeCount
  next : rule.action.next < signature.states.length

variable {signature : Signature}

/-- A state is read as its position in the list of states. -/
theorem readState_eq_ok {role : StateRole} {name : String} {state : Nat} :
    signature.readState role name = .ok state ↔
      signature.states.findIdx? (· == name) = some state := by
  rw [readState]
  split
  · next state found => simp [found]
  · next missing => simp only [missing, reduceCtorEq]

/-- The position of a state names that state. -/
theorem getElem?_of_readState {role : StateRole} {name : String} {state : Nat}
    (read : signature.readState role name = .ok state) :
    signature.states[state]? = some name := by
  obtain ⟨inside, found, -⟩ := List.findIdx?_eq_some_iff_getElem.mp (readState_eq_ok.mp read)
  rw [List.getElem?_eq_getElem inside]
  simpa using found

/-- In a list without repetitions the state at a position is read as that position. -/
theorem readState_of_getElem? (distinct : signature.states.Nodup) {role : StateRole}
    {name : String} {state : Nat} (listed : signature.states[state]? = some name) :
    signature.readState role name = .ok state := by
  obtain ⟨inside, rfl⟩ := List.getElem?_eq_some_iff.mp listed
  rw [readState_eq_ok, List.findIdx?_eq_some_iff_getElem]
  refine ⟨inside, by simp, fun earlier before => ?_⟩
  have apart := List.pairwise_iff_getElem.mp distinct earlier state (by omega) inside before
  simpa using apart

/-- Some state is read under every declared name and under no other. -/
theorem exists_readState {role : StateRole} {name : String} :
    (∃ state, signature.readState role name = .ok state) ↔ name ∈ signature.states := by
  simp only [readState_eq_ok]
  rw [← Option.isSome_iff_exists, List.findIdx?_isSome]
  simp

theorem checkSymbol_eq_ok {source : String} {symbol : Char} {passed : Unit} :
    signature.checkSymbol source symbol = .ok passed ↔ symbol ∈ signature.tapeAlphabet := by
  rw [checkSymbol]
  split <;> simp_all

/-- A component is read as the component whose written form it is. -/
theorem readPatternSymbol_eq_ok (proper : signature.Proper) {source : String}
    {component : List Char} {symbol : PatternSymbol} (unsplit : Pattern.separator ∉ component) :
    signature.readPatternSymbol source component = .ok symbol ↔
      signature.AllowsComponent symbol ∧ component = [symbol.written signature.wildcard] := by
  have token {c : Char} : String.ofList component = c.toString ↔ component = [c] := by
    rw [← String.toList_inj, String.toList_ofList, Char.toString_eq_singleton,
      String.toList_singleton]
  simp only [readPatternSymbol, bind_eq_ok, readToken_eq_ok, token]
  constructor
  · rintro ⟨c, rfl, continued⟩
    split at continued
    · next same =>
        obtain rfl : PatternSymbol.any = symbol := by simpa using continued
        refine ⟨?_, by simp [PatternSymbol.written, same]⟩
        rintro separator
        simp [same, separator] at unsplit
    · simp only [bind_eq_ok, checkSymbol_eq_ok, pure_eq_ok] at continued
      obtain ⟨-, inside, rfl⟩ := continued
      exact ⟨inside, rfl⟩
  · rintro ⟨allowed, rfl⟩
    refine ⟨_, rfl, ?_⟩
    cases symbol with
    | any => simp [PatternSymbol.written]
    | literal c =>
        have other : (PatternSymbol.literal c).written signature.wildcard ≠ signature.wildcard := by
          rintro same
          exact proper.wildcard (same ▸ allowed)
        simp only [if_neg other, bind_eq_ok, checkSymbol_eq_ok, pure_eq_ok]
        exact ⟨(), allowed, rfl⟩

/-- Allowed components are not written as the separator. -/
theorem written_ne_separator (proper : signature.Proper) {symbol : PatternSymbol}
    (allowed : signature.AllowsComponent symbol) :
    symbol.written signature.wildcard ≠ Pattern.separator := by
  cases symbol with
  | any => exact allowed
  | literal c =>
      rintro rfl
      exact proper.separator allowed

/-- A text is read as the pattern whose written form it is. -/
theorem readPattern_eq_ok (proper : signature.Proper) {source text : String} {pattern : Pattern} :
    signature.readPattern source text = .ok pattern ↔
      pattern.length = signature.tapeCount ∧
      (∀ component ∈ pattern, signature.AllowsComponent component) ∧
      text = pattern.render signature.wildcard := by
  have components : (Text.splitOn Pattern.separator text.toList).mapM
        (signature.readPatternSymbol source) = .ok pattern ↔
      (∀ component ∈ pattern, signature.AllowsComponent component) ∧
      Text.splitOn Pattern.separator text.toList =
        pattern.map fun component => [component.written signature.wildcard] :=
    mapM_eq_ok_of_written fun component member result =>
      readPatternSymbol_eq_ok proper (Text.separator_notMem_of_mem_splitOn member)
  have singletons : (pattern.map fun component => [component.written signature.wildcard]) =
      (pattern.written signature.wildcard).map fun symbol => [symbol] := by
    simp [Pattern.written]
  have rendered : text = pattern.render signature.wildcard ↔
      text.toList = (pattern.written signature.wildcard).intersperse Pattern.separator := by
    rw [← String.toList_inj, Pattern.render, String.toList_ofList]
  rw [singletons, Text.splitOn_eq_singletons, ← rendered] at components
  constructor
  · intro accepted
    rw [readPattern] at accepted
    split at accepted
    · next arity =>
        obtain ⟨allowed, -, -, spelled⟩ := components.mp accepted
        refine ⟨?_, allowed, spelled⟩
        have length := (mapM_eq_ok.mp accepted).length_eq
        rw [← length]
        exact arity
    · cases accepted
  · rintro ⟨length, allowed, spelled⟩
    have nonempty : pattern.written signature.wildcard ≠ [] := by
      rw [Pattern.written, ← List.length_pos_iff, List.length_map, length]
      exact proper.tapes
    have unsplit : Pattern.separator ∉ pattern.written signature.wildcard := by
      simp only [Pattern.written, List.mem_map, not_exists, not_and]
      exact fun component member => written_ne_separator proper (allowed component member)
    have accepted := components.mpr ⟨allowed, nonempty, unsplit, spelled⟩
    have arity : (Text.splitOn Pattern.separator text.toList).length = signature.tapeCount := by
      rw [(mapM_eq_ok.mp accepted).length_eq, length]
    rw [readPattern, if_pos arity]
    exact accepted

/-- Allowed patterns have different written forms. -/
theorem render_inj (proper : signature.Proper) {first second : Pattern}
    (firstLength : first.length = signature.tapeCount)
    (firstAllowed : ∀ component ∈ first, signature.AllowsComponent component)
    (secondLength : second.length = signature.tapeCount)
    (secondAllowed : ∀ component ∈ second, signature.AllowsComponent component) :
    first.render signature.wildcard = second.render signature.wildcard ↔ first = second := by
  constructor
  · intro same
    have readFirst := (@readPattern_eq_ok _ proper "" _ _).mpr ⟨firstLength, firstAllowed, rfl⟩
    have readSecond := (@readPattern_eq_ok _ proper "" _ _).mpr ⟨secondLength, secondAllowed, same⟩
    exact Except.ok.inj (readFirst.symm.trans readSecond)
  · rintro rfl
    rfl

/-- A token is read as the write whose written form it is. -/
theorem readWrite_eq_ok (proper : signature.Proper) {source token : String} {write : Write} :
    signature.readWrite source token = .ok write ↔
      signature.AllowsWrite write ∧ token = (write.written signature.unchanged).toString := by
  simp only [readWrite, bind_eq_ok, readToken_eq_ok]
  constructor
  · rintro ⟨c, rfl, continued⟩
    split at continued
    · next same =>
        obtain rfl : Write.keep = write := by simpa using continued
        exact ⟨trivial, by simp [Write.written, same]⟩
    · simp only [bind_eq_ok, checkSymbol_eq_ok, pure_eq_ok] at continued
      obtain ⟨-, inside, rfl⟩ := continued
      exact ⟨inside, rfl⟩
  · rintro ⟨allowed, rfl⟩
    refine ⟨_, rfl, ?_⟩
    cases write with
    | keep => simp [Write.written]
    | put c =>
        have other : (Write.put c).written signature.unchanged ≠ signature.unchanged := by
          rintro same
          exact proper.unchanged (same ▸ allowed)
        simp only [if_neg other, bind_eq_ok, checkSymbol_eq_ok, pure_eq_ok]
        exact ⟨(), allowed, rfl⟩

theorem readMove_eq_ok {source pattern token : String} {direction : Direction} :
    readMove source pattern token = .ok direction ↔
      Direction.ofToken? token = some direction := by
  rw [readMove]
  split
  · next read => simp [read]
  · next unread => simp [unread]

/-- An action is read from the written forms of its writes, from any spelling of its movements and
from a declared state, with as many writes and movements as there are tapes. -/
theorem readAction_eq_ok (proper : signature.Proper) {source pattern : String}
    {record : ActionRecord} {action : Action} :
    signature.readAction source pattern record = .ok action ↔
      action.writes.length = signature.tapeCount ∧ action.moves.length = signature.tapeCount ∧
      (∀ write ∈ action.writes, signature.AllowsWrite write) ∧
      record.write =
        action.writes.map (fun write => (write.written signature.unchanged).toString) ∧
      List.Forall₂ (fun token direction => Direction.ofToken? token = some direction)
        record.move action.moves ∧
      signature.readState .next record.nextState = .ok action.next := by
  have writes {results : List Write} : record.write.mapM (signature.readWrite source) =
        .ok results ↔ (∀ write ∈ results, signature.AllowsWrite write) ∧
      record.write = results.map fun write => (write.written signature.unchanged).toString :=
    mapM_eq_ok_of_written fun token _ write => readWrite_eq_ok proper
  constructor
  · intro accepted
    simp only [readAction] at accepted
    split at accepted
    · simp at accepted
    · next arity =>
        simp only [bind_eq_ok, writes, mapM_eq_ok, readMove_eq_ok, pure_eq_ok] at accepted
        obtain ⟨written, ⟨allowed, spelled⟩, moves, tokens, next, declared, rfl⟩ := accepted
        have moveCount := tokens.length_eq
        rw [spelled, List.length_map] at arity
        dsimp only
        exact ⟨by omega, by omega, allowed, spelled, tokens, declared⟩
  · rintro ⟨writeCount, moveCount, allowed, spelled, tokens, declared⟩
    have arity : ¬ (record.write.length ≠ signature.tapeCount ∨
        record.move.length ≠ signature.tapeCount) := by
      rw [spelled, List.length_map, tokens.length_eq]
      omega
    simp only [readAction, if_neg arity, bind_eq_ok, writes, mapM_eq_ok, readMove_eq_ok,
      pure_eq_ok]
    exact ⟨_, ⟨allowed, spelled⟩, _, tokens, _, declared, rfl⟩

/-- The entry of a table is read as a rule. -/
def ReadsRule (signature : Signature) (source : String) (entry : String × ActionRecord)
    (rule : Rule) : Prop :=
  signature.readPattern source entry.1 = .ok rule.pattern ∧
    signature.readAction source entry.1 entry.2 = .ok rule.action

/-- A table is read entry by entry, as rules whose patterns differ from each other and from those
of the rules already done. -/
theorem readRules_eq_ok {source : String} {done : List Rule} {table : Table ActionRecord}
    {rules : List Rule} :
    signature.readRules source done table = .ok rules ↔
      ∃ fresh, rules = done.reverse ++ fresh ∧
        List.Forall₂ (signature.ReadsRule source) table fresh ∧
        (fresh.map (·.pattern)).Nodup ∧
        ∀ rule ∈ fresh, rule.pattern ∉ done.map (·.pattern) := by
  -- The rules done stand in reverse, in front of those that are read from here on.
  induction table generalizing done with
  | nil =>
      simp only [readRules, Except.ok.injEq, List.forall₂_nil_left_iff]
      constructor
      · rintro rfl
        exact ⟨[], by simp⟩
      · rintro ⟨_, rfl, rfl, -, -⟩
        simp
  | cons entry table ih =>
      obtain ⟨key, record⟩ := entry
      simp only [readRules, bind_eq_ok]
      constructor
      · rintro ⟨pattern, readsPattern, continued⟩
        split at continued
        · simp at continued
        · next unseen =>
            simp only [bind_eq_ok, ih] at continued
            obtain ⟨action, readsAction, fresh, rfl, reads, distinct, apart⟩ := continued
            refine ⟨{ pattern, action } :: fresh, by simp,
              .cons ⟨readsPattern, readsAction⟩ reads, ?_, ?_⟩
            · grind
            · grind
      · rintro ⟨_, rfl, readsAll, distinct, apart⟩
        obtain ⟨rule, fresh, ⟨readsPattern, readsAction⟩, reads, rfl⟩ :=
          List.forall₂_cons_left_iff.mp readsAll
        have unseen : ¬ (done.any (·.pattern == rule.pattern)) = true := by
          have := apart rule (by simp)
          simpa using this
        refine ⟨rule.pattern, readsPattern, ?_⟩
        simp only [if_neg unseen, bind_eq_ok, ih]
        exact ⟨rule.action, readsAction, fresh, by simp, reads, by grind, by grind⟩

/-- The table of a state is read as that state's rules. -/
def ReadsTable (signature : Signature) (table : String × Table ActionRecord)
    (rules : String × List Rule) : Prop :=
  table.1 = rules.1 ∧ table.1 ∈ signature.states ∧
    signature.readRules table.1 [] table.2 = .ok rules.2

/-- Tables are read state by state, under names that differ from each other and from those of the
states already done. -/
theorem readTables_eq_ok {done : Table (List Rule)} {tables : Table (Table ActionRecord)}
    {result : Table (List Rule)} :
    signature.readTables done tables = .ok result ↔
      ∃ fresh, result = done.reverse ++ fresh ∧
        List.Forall₂ signature.ReadsTable tables fresh ∧ (Table.keys fresh).Nodup ∧
        ∀ name ∈ Table.keys fresh, name ∉ Table.keys done := by
  induction tables generalizing done with
  | nil =>
      simp only [readTables, Except.ok.injEq, List.forall₂_nil_left_iff]
      constructor
      · rintro rfl
        exact ⟨[], by simp [Table.keys]⟩
      · rintro ⟨_, rfl, rfl, -, -⟩
        simp
  | cons entry tables ih =>
      obtain ⟨source, table⟩ := entry
      simp only [readTables, bind_eq_ok]
      constructor
      · rintro ⟨state, declared, continued⟩
        split at continued
        · simp at continued
        · next unseen =>
            simp only [bind_eq_ok, ih] at continued
            obtain ⟨rules, readsRules, fresh, rfl, reads, distinct, apart⟩ := continued
            refine ⟨(source, rules) :: fresh, by simp,
              .cons ⟨rfl, exists_readState.mp ⟨state, declared⟩, readsRules⟩ reads, ?_, ?_⟩
            · simp only [Table.keys] at distinct apart ⊢
              grind
            · simp only [Table.keys] at distinct apart ⊢
              grind
      · rintro ⟨_, rfl, readsAll, distinct, apart⟩
        obtain ⟨⟨_, rules⟩, fresh, ⟨rfl, declared, readsRules⟩, reads, rfl⟩ :=
          List.forall₂_cons_left_iff.mp readsAll
        obtain ⟨state, position⟩ := (@exists_readState signature .source source).mpr declared
        have unseen : ¬ (done.any (·.1 == source)) = true := by
          have := apart source (by simp [Table.keys])
          simpa [Table.keys] using this
        refine ⟨state, position, ?_⟩
        simp only [if_neg unseen, bind_eq_ok, ih]
        refine ⟨rules, readsRules, fresh, by simp, reads, ?_, ?_⟩
        · simp only [Table.keys] at distinct ⊢
          grind
        · simp only [Table.keys] at distinct apart ⊢
          grind

end Signature

end TapeMachine
