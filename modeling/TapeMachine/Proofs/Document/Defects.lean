import Mathlib.Data.List.Duplicate
import TapeMachine.Proofs.Machine.WellFormed

/-!
# Which defects are reported where

Reading a heading reports defects of headings, and reading the rules of a state reports defects that
name this state (`Defect.OfHeading`, `Defect.OfRules`). So nothing but the reader of tables reports a
source as repeated, and it does so only if the document has two tables for the source
(`Machine.duplicate_of_repeatedSource`).
-/

namespace TapeMachine

open Checks

namespace Defect

/-- The defects that a heading can have. -/
def OfHeading : Defect → Prop
  | .noTapes | .noStates | .emptyStateName | .repeatedState _ | .repeatedSymbol _ _ => True
  | .inputOutsideTapeAlphabet _ | .blankOutsideTapeAlphabet _ | .reservedTapeSymbol _ _ => True
  | .notOneCharacter role _ =>
    role ∈ [.blank, .wildcard, .unchanged, .tapeSymbol, .inputSymbol]
  | _ => False

/-- The defects that the rules of the state `source` can have. Each of them names the state, or the
next state of a rule. -/
def OfRules (source : String) : Defect → Prop
  | .notOneCharacter role _ => role = .patternSymbol source ∨ role = .writtenSymbol source
  | .patternArity state _ _ _ | .symbolOutsideTapeAlphabet state _ => state = source
  | .repeatedPattern state _ | .actionArity state _ _ _ _ => state = source
  | .unsupportedMove state _ _ => state = source
  | .undeclaredState role _ => role = .next
  | _ => False

end Defect

namespace Signature

variable {signature : Signature} {reasons : Defect → Prop}

/-- A token is refused for its length only. -/
theorem refusesOnly_readToken {role : TokenRole} {token : String}
    (allowed : reasons (.notOneCharacter role token)) :
    RefusesOnly (readToken role token) reasons := by
  rw [readToken]
  split
  · exact refusesOnly_ok _
  · exact refusesOnly_error allowed

/-- A state is refused for not being declared only. -/
theorem refusesOnly_readState {role : StateRole} {name : String}
    (allowed : reasons (.undeclaredState role name)) :
    RefusesOnly (signature.readState role name) reasons := by
  rw [readState]
  split
  · exact refusesOnly_ok _
  · exact refusesOnly_error allowed

/-! ## Headings -/

/-- The names of the states have defects of the heading only. -/
theorem refusesOnly_checkStates (seen names : List String) :
    RefusesOnly (checkStates seen names) Defect.OfHeading := by
  fun_induction checkStates seen names with
  | case1 => exact refusesOnly_ok ()
  | case2 => exact refusesOnly_error trivial
  | case3 => exact refusesOnly_error trivial
  | case4 seen name names nonempty fresh ih => exact ih

/-- The tokens of an alphabet have defects of the heading only. -/
theorem refusesOnly_readAlphabet (alphabet : Alphabet) (seen : List Char) (tokens : List String) :
    RefusesOnly (readAlphabet alphabet seen tokens) Defect.OfHeading := by
  induction tokens generalizing seen with
  | nil => exact refusesOnly_ok _
  | cons token tokens ih =>
      rw [readAlphabet]
      refine (refusesOnly_readToken ?_).bind fun symbol _ => ?_
      · cases alphabet <;> simp [Defect.OfHeading, Alphabet.tokenRole]
      · split
        · exact refusesOnly_error trivial
        · exact ih (symbol :: seen)

/-- Alphabets that do not fit together are a defect of the heading. -/
theorem refusesOnly_checkAlphabets (signature : Signature) :
    RefusesOnly signature.checkAlphabets Defect.OfHeading := by
  simp only [checkAlphabets]
  split
  · exact refusesOnly_error trivial
  split
  · exact refusesOnly_error trivial
  split
  · exact refusesOnly_error trivial
  split
  · exact refusesOnly_error trivial
  split
  · exact refusesOnly_error trivial
  · exact refusesOnly_ok ()

/-- Reading a heading reports defects of headings. -/
theorem refusesOnly_ofDocument (document : Document) :
    RefusesOnly (Signature.ofDocument document) Defect.OfHeading := by
  have token {role : TokenRole} (text : String)
      (listed : (Defect.notOneCharacter role text).OfHeading) :
      RefusesOnly (readToken role text) Defect.OfHeading :=
    refusesOnly_readToken listed
  simp only [Signature.ofDocument]
  split
  · exact refusesOnly_error trivial
  split
  · exact refusesOnly_error trivial
  refine (refusesOnly_checkStates _ _).bind fun _ _ => ?_
  refine (token _ (by simp [Defect.OfHeading])).bind fun blank _ => ?_
  refine (token _ (by simp [Defect.OfHeading])).bind fun wildcard _ => ?_
  refine (token _ (by simp [Defect.OfHeading])).bind fun unchanged _ => ?_
  refine (refusesOnly_readAlphabet .tape _ _).bind fun tape _ => ?_
  refine (refusesOnly_readAlphabet .input _ _).bind fun input _ => ?_
  exact (refusesOnly_checkAlphabets _).bind fun _ _ => refusesOnly_ok _

/-! ## Rules -/

/-- An undeclared symbol is a defect of the rules that use it. -/
theorem refusesOnly_checkSymbol (source : String) (symbol : Char) :
    RefusesOnly (signature.checkSymbol source symbol) (Defect.OfRules source) := by
  rw [checkSymbol]
  split
  · exact refusesOnly_ok ()
  · exact refusesOnly_error rfl

/-- Patterns have defects of their rules only. -/
theorem refusesOnly_readPattern (source pattern : String) :
    RefusesOnly (signature.readPattern source pattern) (Defect.OfRules source) := by
  rw [readPattern]
  split
  · refine refusesOnly_mapM fun component _ => ?_
    refine (refusesOnly_readToken (.inl rfl)).bind fun symbol _ => ?_
    split
    · exact refusesOnly_ok _
    · exact (refusesOnly_checkSymbol source symbol).bind fun _ _ => refusesOnly_ok _
  · exact refusesOnly_error rfl

/-- Writes have defects of their rules only. -/
theorem refusesOnly_readWrite (source token : String) :
    RefusesOnly (signature.readWrite source token) (Defect.OfRules source) := by
  refine (refusesOnly_readToken (.inr rfl)).bind fun symbol _ => ?_
  split
  · exact refusesOnly_ok _
  · exact (refusesOnly_checkSymbol source symbol).bind fun _ _ => refusesOnly_ok _

/-- Movements have defects of their rules only. -/
theorem refusesOnly_readMove (source pattern token : String) :
    RefusesOnly (readMove source pattern token) (Defect.OfRules source) := by
  rw [readMove]
  split
  · exact refusesOnly_ok _
  · exact refusesOnly_error rfl

/-- Actions have defects of their rules only. -/
theorem refusesOnly_readAction (source pattern : String) (record : ActionRecord) :
    RefusesOnly (signature.readAction source pattern record) (Defect.OfRules source) := by
  simp only [readAction]
  split
  · exact refusesOnly_error rfl
  · refine (refusesOnly_mapM fun token _ => refusesOnly_readWrite source token).bind
      fun writes _ => ?_
    refine (refusesOnly_mapM fun token _ => refusesOnly_readMove source pattern token).bind
      fun moves _ => ?_
    have next : (Defect.undeclaredState .next record.nextState).OfRules source := rfl
    exact (refusesOnly_readState next).bind fun next _ => refusesOnly_ok _

/-- Reading the rules of a state reports defects that name the state. -/
theorem refusesOnly_readRules (source : String) (done : List Rule) (table : Table ActionRecord) :
    RefusesOnly (signature.readRules source done table) (Defect.OfRules source) := by
  induction table generalizing done with
  | nil => exact refusesOnly_ok _
  | cons entry table ih =>
      obtain ⟨key, record⟩ := entry
      simp only [readRules]
      refine (refusesOnly_readPattern source key).bind fun pattern _ => ?_
      split
      · exact refusesOnly_error rfl
      · exact (refusesOnly_readAction source key record).bind fun action _ => ih _

/-! ## Repeated sources -/

/-- The reader of tables reports a source as repeated if it has read a table for it, or if there are
two tables left for it. -/
theorem repeated_of_readTables {source : String} (done : Table (List Rule))
    (tables : Table (Table ActionRecord)) :
    RefusesOnly (signature.readTables done tables) fun defect => defect = .repeatedSource source →
      source ∈ Table.keys done ∧ source ∈ Table.keys tables ∨
        List.Duplicate source (Table.keys tables) := by
  -- A table that was read is one of those done, and the same source may still come twice.
  induction tables generalizing done with
  | nil => exact refusesOnly_ok _
  | cons entry tables ih =>
      obtain ⟨name, table⟩ := entry
      simp only [readTables]
      refine (refusesOnly_readState (by simp)).bind fun _ _ => ?_
      split
      · next seen =>
          refine refusesOnly_error ?_
          rintro ⟨⟩
          exact .inl ⟨by simpa [Table.keys] using seen, List.mem_cons_self⟩
      · refine RefusesOnly.bind ?_ fun rules _ => ?_
        · refine (refusesOnly_readRules name [] table).imp ?_
          rintro _ ofRules rfl
          exact ofRules.elim
        · refine (ih ((name, rules) :: done)).imp ?_
          rintro defect repeated rfl
          rcases repeated rfl with ⟨seen, later⟩ | twice
          · rcases List.mem_cons.mp seen with rfl | seen
            · exact .inr (List.duplicate_cons_self_iff.mpr later)
            · exact .inl ⟨seen, List.mem_cons_of_mem _ later⟩
          · exact .inr (twice.duplicate_cons name)

end Signature

/-- A document is refused for a repeated source only if it has two tables for the source. -/
theorem Machine.duplicate_of_repeatedSource {document : Document} {source : String}
    (refused : Machine.ofDocument document = .error (.repeatedSource source)) :
    List.Duplicate source (Table.keys document.transitions) := by
  have only : RefusesOnly (Machine.ofDocument document) fun defect =>
      defect = .repeatedSource source →
        List.Duplicate source (Table.keys document.transitions) := by
    rw [Machine.ofDocument]
    refine RefusesOnly.bind ?_ fun signature _ => ?_
    · refine (Signature.refusesOnly_ofDocument document).imp ?_
      rintro _ ofHeading rfl
      exact ofHeading.elim
    refine (Signature.refusesOnly_readState (by simp)).bind fun initial _ => ?_
    refine (refusesOnly_forM fun name _ => ?_).bind fun _ _ => ?_
    · exact (Signature.refusesOnly_readState (by simp)).bind fun _ _ => refusesOnly_ok ()
    refine RefusesOnly.bind ?_ fun tables _ => refusesOnly_ok _
    refine (@Signature.repeated_of_readTables signature source [] _).imp ?_
    intro defect repeated same
    exact (repeated same).resolve_left (by simp [Table.keys])
  exact only _ refused rfl

end TapeMachine
