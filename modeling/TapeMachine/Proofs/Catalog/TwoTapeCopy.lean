import TapeMachine.Proofs.Catalog.Sources
import TapeMachine.Proofs.Run.Zipper

/-!
# The copying machine

The machine writes each digit of its first tape over the cell of the second tape that stands at the
same position. Its rules look at the second tape through wildcards only, so that tape may hold any
symbols, and what it holds behind the copy stays there.
-/

namespace TapeMachine.Catalog

/-- The machine that the source of the catalog describes. -/
def twoTapeCopyMachine : Machine where
  name := "Two-Tape Copy"
  summary := "Copies a binary word from tape 0 to tape 1."
  states := #[
    { name := "copy", accepting := false
      rules := [
        { pattern := [.literal '0', .any]
          action := { writes := [.keep, .put '0'], moves := [.right, .right], next := 0 } },
        { pattern := [.literal '1', .any]
          action := { writes := [.keep, .put '1'], moves := [.right, .right], next := 0 } },
        { pattern := [.literal '_', .any]
          action := { writes := [.keep, .keep], moves := [.stay, .stay], next := 1 } }] },
    { name := "done", accepting := true, rules := [] }]
  inputAlphabet := ['0', '1']
  tapeAlphabet := ['0', '1', '_']
  tapeCount := 2
  blank := '_'
  wildcard := '*'
  unchanged := '*'
  initial := 0

/-- The source of the catalog loads as this machine. -/
theorem load_twoTapeCopy : Format.json.load twoTapeCopy = .ok twoTapeCopyMachine ∧
    twoTapeCopyMachine.WellFormed := by
  apply Document.load_of_compileJson?
  case spelled =>
    unfold twoTapeCopy
    iterate 16
      apply Text.append_eq_ofList
      case spelledSecond => rfl
    rfl
  case small => decide +kernel
  case compiled => decide +kernel

namespace TwoTapeCopy

open TapeMachine.Ideal (Leads)

/-- The words over the input alphabet. -/
def IsInput (word : List Char) : Prop :=
  ∀ c ∈ word, c = '0' ∨ c = '1'

variable {word : List Char} {config : RunConfig}

/-- A digit is copied over any symbol. -/
theorem findRule?_digit {c : Char} (digit : c = '0' ∨ c = '1') (symbol : Char) :
    twoTapeCopyMachine.findRule? 0 [c, symbol] =
      some ⟨[.literal c, .any], ⟨[.keep, .put c], [.right, .right], 0⟩⟩ := by
  rcases digit with rfl | rfl <;> rfl

/-- A word is copied over the symbols from the second head on. -/
theorem leads_copy (isInput : IsInput word) (steps : Nat) (before other after : List Char) :
    Leads twoTapeCopyMachine word.length
      (.ofZippers twoTapeCopyMachine 0 steps [⟨before, word⟩, ⟨other, after⟩])
      (.ofZippers twoTapeCopyMachine 0 (steps + word.length)
        [⟨word.reverse ++ before, []⟩, ⟨word.reverse ++ other, after.drop word.length⟩]) := by
  induction word generalizing steps before other after with
  | nil => exact .refl _
  | cons c word ih =>
      have later : IsInput word := fun d listed => isInput d (List.mem_cons_of_mem c listed)
      have first : Ideal.step twoTapeCopyMachine
          (.ofZippers twoTapeCopyMachine 0 steps [⟨before, c :: word⟩, ⟨other, after⟩]) =
          (.applied, .ofZippers twoTapeCopyMachine 0 (steps + 1)
            [⟨c :: before, word⟩, ⟨c :: other, after.tail⟩]) :=
        Ideal.step_ofZippers rfl
          (findRule?_digit (isInput c List.mem_cons_self) (after.headD '_')) rfl rfl
      have passed (prior : List Char) :
          (c :: word).reverse ++ prior = word.reverse ++ c :: prior := by simp
      have left : after.drop (c :: word).length = after.tail.drop word.length := by
        rw [← List.drop_one, List.drop_drop, Nat.add_comm, List.length_cons]
      have path := Leads.head first
        (ih later (steps + 1) (c :: before) (c :: other) after.tail)
      rw [passed, passed, left, List.length_cons]
      rwa [Nat.add_right_comm] at path

/-- Behind the word the machine stops without another change. -/
theorem leads_done (isInput : IsInput word) (other : List Char) :
    Leads twoTapeCopyMachine (word.length + 1)
      (.ofZippers twoTapeCopyMachine 0 0 [⟨[], word⟩, ⟨[], other⟩])
      (.ofZippers twoTapeCopyMachine 1 (word.length + 1)
        [⟨word.reverse, []⟩, ⟨word.reverse, other.drop word.length⟩]) := by
  have found (symbol : Char) : twoTapeCopyMachine.findRule? 0 ['_', symbol] =
      some ⟨[.literal '_', .any], ⟨[.keep, .keep], [.stay, .stay], 1⟩⟩ := rfl
  have copied := leads_copy isInput 0 [] [] other
  rw [List.append_nil, Nat.zero_add] at copied
  exact copied.step (Ideal.step_ofZippers rfl (found _) rfl rfl)

end TwoTapeCopy

open TwoTapeCopy

/-- The copying machine of the catalog writes its first tape over the second one, whatever stands
there, and leaves what stands behind the copy. -/
theorem twoTapeCopy_copies_over_anything (word other : List Char)
    (isInput : ∀ c ∈ word, c = '0' ∨ c = '1') (config : RunConfig)
    (enough : word.length + 1 ≤ config.maxSteps) :
    ∃ entry ∈ entries, entry.source = twoTapeCopy ∧
      entry.format.load entry.source = .ok entry.machine ∧
      (entry.machine.runOn config [String.ofList word, String.ofList other]).map
          entry.machine.report = .ok
        { result :=
            { outcome := .accepted
              state := "done"
              steps := word.length + 1
              heads := [word.length, word.length]
              symbols := ['_', other.getD word.length '_'] }
          tapes := [
            String.ofList word,
            String.ofList (Tape.trimBlanks '_' (word ++ other.drop word.length))] } := by
  have listed : { source := twoTapeCopy, format := .json, sample := ["1011"] } ∈ sources := by
    simp [sources]
  refine ⟨_, mem_entries_of_load listed load_twoTapeCopy.1, rfl, load_twoTapeCopy.1, ?_⟩
  have trimmed : Tape.trimBlanks twoTapeCopyMachine.blank word = word := by
    refine Tape.trimBlanks_eq_self fun inside => ?_
    simpa [twoTapeCopyMachine] using isInput _ inside
  have symbol : other.getD word.length '_' = (other.drop word.length).headD '_' := by
    rw [List.headD_eq_head?_getD, List.head?_drop, List.getD_eq_getElem?_getD]
  have report := load_twoTapeCopy.2.report_of_leads [word, other] rfl (leads_done isInput other)
    rfl enough
  simp only [List.map_cons, List.map_nil, List.length_reverse, Ideal.Zipper.word,
    List.reverse_reverse, List.append_nil, trimmed] at report
  rw [symbol]
  exact report

/-- Symbols outside the alphabet are overwritten, and what stands behind the copy is kept up to its
last symbol other than the blank. -/
theorem twoTapeCopy_copies_over_sample :
    (∀ c ∈ ['1', '0'], c = '0' ∨ c = '1') ∧ ∃ entry ∈ entries, entry.source = twoTapeCopy ∧
      (entry.machine.runOn { maxSteps := 3 } ["10", "*,_é__"]).map entry.machine.report = .ok
        { result :=
            { outcome := .accepted
              state := "done"
              steps := 3
              heads := [2, 2]
              symbols := ['_', '_'] }
          tapes := ["10", "10_é"] } := by
  have isInput : ∀ c ∈ ['1', '0'], c = '0' ∨ c = '1' := by simp
  obtain ⟨entry, listed, source, -, copies⟩ := twoTapeCopy_copies_over_anything ['1', '0']
    ['*', ',', '_', 'é', '_', '_'] isInput { maxSteps := 3 } (by decide)
  exact ⟨isInput, entry, listed, source, copies⟩

end TapeMachine.Catalog
