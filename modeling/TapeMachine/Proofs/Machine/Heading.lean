import TapeMachine.Machine.Compile
import TapeMachine.Proofs.Checks

/-!
# What a heading settles

`Signature.Proper` collects what the checks of a heading promise to the rules below it.
`Signature.ofDocument_eq_ok` says that reading a heading succeeds exactly when the document spells
out a proper signature, token by token, and that the signature is then unique.
-/

namespace TapeMachine.Signature

open Checks

/-- A token is the text of a single character. -/
theorem readToken_eq_ok {role : TokenRole} {token : String} {symbol : Char} :
    readToken role token = .ok symbol ↔ token = symbol.toString := by
  have spelled : token = symbol.toString ↔ token.toList = [symbol] := by
    rw [← String.toList_inj, Char.toString_eq_singleton, String.toList_singleton]
  rw [spelled, readToken]
  split
  · next single equation => simp [equation]
  · next other =>
      simp only [reduceCtorEq, false_iff]
      exact other symbol

/-- State names pass when they are not empty, differ from each other and from the names seen. -/
theorem checkStates_eq_ok {seen names : List String} :
    checkStates seen names = .ok () ↔
      "" ∉ names ∧ names.Nodup ∧ ∀ name ∈ names, name ∉ seen := by
  induction names generalizing seen with
  | nil => simp [checkStates]
  | cons name names ih =>
      rw [checkStates]
      split
      · next empty => simp [empty]
      · next nonempty =>
          split
          · next repeated => simp [repeated]
          · next fresh =>
              rw [ih]
              simp only [List.mem_cons, List.nodup_cons, not_or]
              grind

/-- An alphabet spells out characters that differ from each other and from those seen. -/
theorem readAlphabet_eq_ok {alphabet : Alphabet} {seen : List Char} {tokens : List String}
    {symbols : List Char} :
    readAlphabet alphabet seen tokens = .ok symbols ↔
      ∃ fresh : List Char, tokens = fresh.map Char.toString ∧ symbols = seen.reverse ++ fresh ∧
        fresh.Nodup ∧ ∀ symbol ∈ fresh, symbol ∉ seen := by
  induction tokens generalizing seen with
  | nil =>
      simp only [readAlphabet, Except.ok.injEq, List.nil_eq, List.map_eq_nil_iff]
      constructor
      · rintro rfl
        exact ⟨[], by simp⟩
      · rintro ⟨_, rfl, rfl, -, -⟩
        simp
  | cons token tokens ih =>
      simp only [readAlphabet, bind_eq_ok, readToken_eq_ok]
      constructor
      · rintro ⟨symbol, rfl, continued⟩
        split at continued
        · cases continued
        · next unseen =>
            obtain ⟨fresh, rfl, rfl, distinct, apart⟩ := ih.mp continued
            refine ⟨symbol :: fresh, by simp, by simp, ?_, ?_⟩
            · grind
            · grind
      · rintro ⟨_ | ⟨symbol, fresh⟩, spelled, rfl, distinct, apart⟩
        · simp at spelled
        · obtain ⟨rfl, rfl⟩ : token = symbol.toString ∧ tokens = fresh.map Char.toString := by
            simpa using spelled
          refine ⟨symbol, rfl, ?_⟩
          rw [if_neg (apart symbol (by simp)), ih]
          exact ⟨fresh, rfl, by simp, by grind, by grind⟩

/-- What the checks of a heading promise. -/
structure Proper (signature : Signature) : Prop where
  tapes : 0 < signature.tapeCount
  states : signature.states ≠ []
  named : "" ∉ signature.states
  distinctStates : signature.states.Nodup
  distinctTape : signature.tapeAlphabet.Nodup
  distinctInput : signature.inputAlphabet.Nodup
  input : ∀ symbol ∈ signature.inputAlphabet, symbol ∈ signature.tapeAlphabet
  blank : signature.blank ∈ signature.tapeAlphabet
  wildcard : signature.wildcard ∉ signature.tapeAlphabet
  unchanged : signature.unchanged ∉ signature.tapeAlphabet
  separator : Pattern.separator ∉ signature.tapeAlphabet

/-- The alphabets of a heading pass when they hold what they must and nothing reserved. -/
theorem checkAlphabets_eq_ok {signature : Signature} :
    signature.checkAlphabets = .ok () ↔
      (∀ symbol ∈ signature.inputAlphabet, symbol ∈ signature.tapeAlphabet) ∧
      signature.blank ∈ signature.tapeAlphabet ∧
      signature.wildcard ∉ signature.tapeAlphabet ∧
      signature.unchanged ∉ signature.tapeAlphabet ∧
      Pattern.separator ∉ signature.tapeAlphabet := by
  rw [checkAlphabets]
  split
  · next symbol found =>
      have outside := List.find?_some found
      have listed := List.mem_of_find?_eq_some found
      simp only [reduceCtorEq, false_iff]
      grind
  · next none =>
      have inside : ∀ symbol ∈ signature.inputAlphabet, symbol ∈ signature.tapeAlphabet := by
        simpa using none
      grind

/-- A document spells out a signature: its tokens are the texts of the signature's characters. -/
structure Spelled (document : Document) (signature : Signature) : Prop where
  tapeCount : document.tapeCount = signature.tapeCount
  states : document.states = signature.states
  blank : document.blank = signature.blank.toString
  wildcard : document.wildcard = signature.wildcard.toString
  unchanged : document.unchanged = signature.unchanged.toString
  tapeAlphabet : document.tapeAlphabet = signature.tapeAlphabet.map Char.toString
  inputAlphabet : document.inputAlphabet = signature.inputAlphabet.map Char.toString

/-- Reading a heading succeeds exactly when the document spells out a proper signature. -/
theorem ofDocument_eq_ok {document : Document} {signature : Signature} :
    Signature.ofDocument document = .ok signature ↔
      signature.Proper ∧ Spelled document signature := by
  constructor
  · intro accepted
    simp only [Signature.ofDocument] at accepted
    split at accepted
    · simp at accepted
    next tapes =>
    split at accepted
    · simp at accepted
    next states =>
    simp only [bind_eq_ok, readToken_eq_ok, readAlphabet_eq_ok, pure_eq_ok] at accepted
    obtain ⟨_, names, blank, blankText, wildcard, wildcardText, unchanged, unchangedText,
      _, ⟨tape, tapeText, rfl, distinctTape, -⟩, _, ⟨input, inputText, rfl, distinctInput, -⟩,
      _, alphabets, rfl⟩ := accepted
    obtain ⟨named, distinctStates, -⟩ := checkStates_eq_ok.mp names
    obtain ⟨inside, blankInside, wildcardOutside, unchangedOutside, separatorOutside⟩ :=
      checkAlphabets_eq_ok.mp alphabets
    exact ⟨⟨Nat.pos_of_ne_zero tapes, states, named, distinctStates, distinctTape, distinctInput,
        inside, blankInside, wildcardOutside, unchangedOutside, separatorOutside⟩,
      ⟨rfl, rfl, blankText, wildcardText, unchangedText, tapeText, inputText⟩⟩
  · rintro ⟨proper, spelled⟩
    have tapes : document.tapeCount ≠ 0 := by
      rw [spelled.tapeCount]
      exact Nat.ne_of_gt proper.tapes
    have states : document.states ≠ [] := by
      rw [spelled.states]
      exact proper.states
    simp only [Signature.ofDocument, if_neg tapes, if_neg states, bind_eq_ok, readToken_eq_ok,
      readAlphabet_eq_ok, pure_eq_ok]
    refine ⟨(), checkStates_eq_ok.mpr ?_, signature.blank, spelled.blank, signature.wildcard,
      spelled.wildcard, signature.unchanged, spelled.unchanged, signature.tapeAlphabet, ?_,
      signature.inputAlphabet, ?_, (), ?_, ?_⟩
    · rw [spelled.states]
      exact ⟨proper.named, proper.distinctStates, by simp⟩
    · exact ⟨signature.tapeAlphabet, spelled.tapeAlphabet, by simp, proper.distinctTape, by simp⟩
    · exact ⟨signature.inputAlphabet, spelled.inputAlphabet, by simp, proper.distinctInput,
        by simp⟩
    · exact checkAlphabets_eq_ok.mpr
        ⟨proper.input, proper.blank, proper.wildcard, proper.unchanged, proper.separator⟩
    · simp [spelled.tapeCount, spelled.states]

end TapeMachine.Signature
