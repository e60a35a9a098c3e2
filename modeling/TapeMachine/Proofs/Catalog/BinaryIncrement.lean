import Mathlib.Data.Nat.Digits.Defs
import TapeMachine.Proofs.Catalog.Sources
import TapeMachine.Proofs.Run.Zipper

/-!
# The binary increment machine

The machine carries over the ones at the start of a word and writes a one over what follows them, be
it a zero or the blank behind the word. The listing declares neither states nor alphabets, so what it
loads as is partly inferred.
-/

namespace TapeMachine.Catalog

/-- The machine that the source of the catalog describes. -/
def binaryIncrementMachine : Machine where
  name := "Binary Increment"
  summary := ""
  states := #[
    { name := "carry", accepting := false
      rules := [
        { pattern := [.literal '1']
          action := { writes := [.put '0'], moves := [.right], next := 0 } },
        { pattern := [.literal '0']
          action := { writes := [.put '1'], moves := [.stay], next := 1 } },
        { pattern := [.literal '_']
          action := { writes := [.put '1'], moves := [.stay], next := 1 } }] },
    { name := "done", accepting := true, rules := [] }]
  inputAlphabet := ['1', '0']
  tapeAlphabet := ['1', '0', '_']
  tapeCount := 1
  blank := '_'
  wildcard := '*'
  unchanged := '*'
  initial := 0

/-- The source of the catalog loads as this machine. -/
theorem load_binaryIncrement : Format.listing.load binaryIncrement = .ok binaryIncrementMachine ∧
    binaryIncrementMachine.WellFormed := by
  apply Listing.load_of_compile?
  case spelled =>
    unfold binaryIncrement
    iterate 8
      apply Text.append_eq_ofList
      case spelledSecond => rfl
    rfl
  case small => decide +kernel
  case compiled => decide +kernel

namespace BinaryIncrement

open TapeMachine.Ideal (Leads)

/-- The value of a digit. -/
def digit (c : Char) : Nat :=
  if c = '1' then 1 else 0

/-- The value of a word of digits, the least significant first. -/
def value (word : List Char) : Nat :=
  Nat.ofDigits 2 (word.map digit)

/-- The number of ones before the first other digit. -/
def leadingOnes (word : List Char) : Nat :=
  (word.takeWhile (· == '1')).length

/-- The words over the binary digits. -/
def IsBinary (word : List Char) : Prop :=
  ∀ c ∈ word, c = '0' ∨ c = '1'

variable {word rest : List Char} {config : RunConfig}

/-! ## Words -/

/-- A word is its leading ones and a rest that does not start with a one. -/
theorem split_leadingOnes (word : List Char) :
    word = List.replicate (leadingOnes word) '1' ++ word.drop (leadingOnes word) ∧
      (word.drop (leadingOnes word)).head? ≠ some '1' := by
  induction word with
  | nil => exact ⟨rfl, by simp⟩
  | cons c word ih =>
      by_cases one : c = '1'
      · obtain ⟨split, ends⟩ := ih
        have longer : leadingOnes (c :: word) = leadingOnes word + 1 := by
          simp [leadingOnes, one]
        rw [longer, List.replicate_succ, List.cons_append, List.drop_succ_cons, ← split, one]
        exact ⟨rfl, ends⟩
      · have none : leadingOnes (c :: word) = 0 := by simp [leadingOnes, one]
        rw [none]
        exact ⟨rfl, by simpa using one⟩

/-- What carrying over ones leaves is binary. -/
theorem IsBinary.carry (isBinary : IsBinary rest) (count : Nat) :
    IsBinary (List.replicate count '0' ++ '1' :: rest.tail) := by
  intro c inside
  rcases List.mem_append.mp inside with zero | later
  · exact .inl (List.eq_of_mem_replicate zero)
  · rcases List.mem_cons.mp later with one | kept
    · exact .inr one
    · exact isBinary c (List.mem_of_mem_tail kept)

@[simp]
theorem digit_zero : digit '0' = 0 := rfl

@[simp]
theorem digit_one : digit '1' = 1 := rfl

/-- The empty word has the value zero. -/
@[simp]
theorem value_nil : value [] = 0 := rfl

/-- The first digit is the least one. -/
@[simp]
theorem value_cons (c : Char) (word : List Char) :
    value (c :: word) = digit c + 2 * value word :=
  Nat.ofDigits_cons

/-- Carrying over ones adds one. -/
theorem value_carry (isBinary : IsBinary rest) (ends : rest.head? ≠ some '1') (count : Nat) :
    value (List.replicate count '0' ++ '1' :: rest.tail) =
      value (List.replicate count '1' ++ rest) + 1 := by
  induction count with
  | zero =>
      cases rest with
      | nil => simp
      | cons c rest =>
          obtain rfl : c = '0' := by
            rcases isBinary c List.mem_cons_self with zero | one
            · exact zero
            · simp [one] at ends
          simp [Nat.add_comm]
  | succ count ih =>
      rw [List.replicate_succ, List.replicate_succ, List.cons_append, List.cons_append, value_cons,
        value_cons, ih, digit_zero, digit_one]
      omega

/-! ## Paths -/

/-- The machine finds the same action for a zero and for a blank. -/
theorem findRule?_carried : ∀ symbol ∈ ['0', '_'],
    binaryIncrementMachine.findRule? 0 [symbol] =
      some ⟨[.literal symbol], ⟨[.put '1'], [.stay], 1⟩⟩ := by
  simp only [List.forall_mem_cons, List.not_mem_nil, false_implies, implies_true, and_true]
  decide

/-- Ones are passed and what follows them is overwritten. -/
theorem leads_increment (isBinary : IsBinary rest) (ends : rest.head? ≠ some '1') (count : Nat) :
    Leads binaryIncrementMachine (count + 1)
      (.ofZippers binaryIncrementMachine 0 0 [⟨[], List.replicate count '1' ++ rest⟩])
      (.ofZippers binaryIncrementMachine 1 (count + 1)
        [⟨List.replicate count '0', '1' :: rest.tail⟩]) := by
  have foundOne : binaryIncrementMachine.findRule? 0 ['1'] =
      some ⟨[.literal '1'], ⟨[.put '0'], [.right], 0⟩⟩ := by decide
  have follows : rest.headD '_' ∈ ['0', '_'] := by
    cases rest with
    | nil => simp
    | cons c rest =>
        rcases isBinary c List.mem_cons_self with rfl | rfl
        · simp
        · simp at ends
  have carried := @Ideal.leads_sweep binaryIncrementMachine 0 0 _ _ _ rfl foundOne count [] rest
  rw [Nat.zero_add, List.append_nil] at carried
  exact carried.step (Ideal.step_ofZippers rfl (findRule?_carried _ follows) rfl rfl)

/-! ## Runs -/

/-- A word over the binary digits holds no blanks that could be trimmed. -/
theorem IsBinary.trimBlanks_eq_self (isBinary : IsBinary word) :
    Tape.trimBlanks '_' word = word := by
  refine Tape.trimBlanks_eq_self fun inside => ?_
  simpa using isBinary _ inside

/-- The machine turns the ones before the first zero or blank into zeros, and that into a one. -/
theorem report_increment (isBinary : IsBinary rest) (ends : rest.head? ≠ some '1') {count : Nat}
    (enough : count + 1 ≤ config.maxSteps) :
    (binaryIncrementMachine.runOn config [String.ofList (List.replicate count '1' ++ rest)]).map
        binaryIncrementMachine.report = .ok
      { result :=
          { outcome := .accepted
            state := "done"
            steps := count + 1
            heads := [count]
            symbols := ['1'] }
        tapes := [String.ofList (List.replicate count '0' ++ '1' :: rest.tail)] } := by
  have report := load_binaryIncrement.2.report_of_leads [List.replicate count '1' ++ rest] rfl
    (leads_increment isBinary ends count) rfl enough
  simp only [List.map_cons, List.map_nil, List.length_replicate, Ideal.Zipper.word,
    List.reverse_replicate] at report
  rw [← (isBinary.carry count).trimBlanks_eq_self]
  exact report

end BinaryIncrement

open BinaryIncrement

/-- The binary increment machine of the catalog adds one to a number whose least significant digit
comes first. It takes one step for each leading one and one more, and gives up if the budget is
smaller. -/
theorem binaryIncrement_adds_one (word : List Char) (isBinary : ∀ c ∈ word, c = '0' ∨ c = '1')
    (config : RunConfig) :
    ∃ entry ∈ entries, entry.source = binaryIncrement ∧
      entry.format.load entry.source = .ok entry.machine ∧
      let ones := leadingOnes word
      let output := List.replicate ones '0' ++ '1' :: word.drop (ones + 1)
      (ones + 1 ≤ config.maxSteps →
        (entry.machine.runOn config [String.ofList word]).map entry.machine.report = .ok
          { result :=
              { outcome := .accepted
                state := "done"
                steps := ones + 1
                heads := [ones]
                symbols := ['1'] }
            tapes := [String.ofList output] }) ∧
      (∀ c ∈ output, c = '0' ∨ c = '1') ∧
      value output = value word + 1 ∧
      (config.maxSteps ≤ ones →
        ∃ report, (entry.machine.runOn config [String.ofList word]).map entry.machine.report =
            .ok report ∧
          report.result.outcome = .stepLimitExceeded) := by
  have listed : { source := binaryIncrement, format := .listing, sample := ["1101"] } ∈ sources := by
    simp [sources]
  refine ⟨_, mem_entries_of_load listed load_binaryIncrement.1, rfl, load_binaryIncrement.1, ?_⟩
  intro ones output
  obtain ⟨split, ends⟩ := split_leadingOnes word
  have isBinaryRest : IsBinary (word.drop ones) :=
    fun c inside => isBinary c (List.mem_of_mem_drop inside)
  have carried : output = List.replicate ones '0' ++ '1' :: (word.drop ones).tail := by
    rw [List.tail_drop]
  have path := leads_increment isBinaryRest ends ones
  have adds := value_carry isBinaryRest ends ones
  rw [← split] at path adds
  rw [carried]
  refine ⟨fun enough => ?_, isBinaryRest.carry ones, adds, fun short => ?_⟩
  · have report := report_increment isBinaryRest ends enough
    rwa [← split] at report
  · obtain ⟨report, ran, outcome, -⟩ := load_binaryIncrement.2.report_of_leads_beyond [word] rfl path
      (Nat.lt_succ_of_le short)
    exact ⟨report, ran, outcome⟩

/-- Eleven, written with its least significant digit first, becomes twelve in three steps. -/
theorem binaryIncrement_adds_one_to_eleven :
    (∀ c ∈ ['1', '1', '0', '1'], c = '0' ∨ c = '1') ∧ ∃ entry ∈ entries,
      entry.source = binaryIncrement ∧
      (entry.machine.runOn { maxSteps := 3 } ["1101"]).map entry.machine.report = .ok
        { result :=
            { outcome := .accepted, state := "done", steps := 3, heads := [2], symbols := ['1'] }
          tapes := ["0011"] } := by
  have isBinary : ∀ c ∈ ['1', '1', '0', '1'], c = '0' ∨ c = '1' := by simp
  obtain ⟨entry, listed, source, -, adds, -, -, -⟩ :=
    binaryIncrement_adds_one ['1', '1', '0', '1'] isBinary { maxSteps := 3 }
  exact ⟨isBinary, entry, listed, source, adds (by decide)⟩

end TapeMachine.Catalog
