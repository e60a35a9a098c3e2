import TapeMachine.Proofs.Catalog.Sources
import TapeMachine.Proofs.Run.Zipper

/-!
# The unary addition machine

The machine scans the first number, writes a one over the plus sign, goes on to the end of the second
number and erases the last one there. It never reads a symbol twice before that, so a word without
plus sign is given up at its end and a word with two plus signs at the second of them.
-/

namespace TapeMachine.Catalog

/-- The machine that the source of the catalog describes. -/
def unaryAdditionMachine : Machine where
  name := "Unary Addition"
  summary := "Adds two unary numbers separated by '+', e.g. 11+1 becomes 111."
  states := #[
    { name := "scan", accepting := false
      rules := [
        { pattern := [.literal '1']
          action := { writes := [.keep], moves := [.right], next := 0 } },
        { pattern := [.literal '+']
          action := { writes := [.put '1'], moves := [.right], next := 1 } }] },
    { name := "seek_end", accepting := false
      rules := [
        { pattern := [.literal '1']
          action := { writes := [.keep], moves := [.right], next := 1 } },
        { pattern := [.literal '_']
          action := { writes := [.keep], moves := [.left], next := 2 } }] },
    { name := "erase", accepting := false
      rules := [
        { pattern := [.literal '1']
          action := { writes := [.put '_'], moves := [.stay], next := 3 } }] },
    { name := "done", accepting := true, rules := [] }]
  inputAlphabet := ['1', '+']
  tapeAlphabet := ['1', '+', '_']
  tapeCount := 1
  blank := '_'
  wildcard := '*'
  unchanged := '*'
  initial := 0

/-- The source of the catalog loads as this machine. -/
theorem load_unaryAddition : Format.json.load unaryAddition = .ok unaryAdditionMachine ∧
    unaryAdditionMachine.WellFormed := by
  -- Spelling out the source comes first: the other goals are about its characters.
  apply Document.load_of_compileJson?
  case spelled =>
    unfold unaryAddition
    iterate 22
      apply Text.append_eq_ofList
      case spelledSecond => rfl
    rfl
  case small => decide +kernel
  case compiled => decide +kernel

namespace UnaryAddition

open TapeMachine.Ideal (Leads)

/-- A number. -/
def ones (number : Nat) : List Char :=
  List.replicate number '1'

/-- Two numbers with a plus sign between them. -/
def sum (first second : Nat) : List Char :=
  ones first ++ '+' :: ones second

/-- The words over the input alphabet. -/
def IsInput (word : List Char) : Prop :=
  ∀ c ∈ word, c = '1' ∨ c = '+'

variable {word after : List Char} {first second : Nat} {config : RunConfig}

/-! ## Words -/

/-- A word is a number that ends with the word or before a plus sign. -/
theorem IsInput.exists_ones (isInput : IsInput word) :
    ∃ number, word = ones number ∨
      ∃ after, word = ones number ++ '+' :: after ∧ IsInput after := by
  induction word with
  | nil => exact ⟨0, .inl rfl⟩
  | cons c word ih =>
      have later : IsInput word := fun d listed => isInput d (List.mem_cons_of_mem c listed)
      rcases isInput c List.mem_cons_self with rfl | rfl
      · obtain ⟨number, rfl | ⟨after, rfl, rest⟩⟩ := ih later
        · exact ⟨number + 1, .inl rfl⟩
        · exact ⟨number + 1, .inr ⟨after, rfl, rest⟩⟩
      · exact ⟨0, .inr ⟨word, rfl, later⟩⟩

/-- A word is a number, a sum, or a sum and more behind a second plus sign. -/
theorem IsInput.cases_sum (isInput : IsInput word) :
    (∃ number, word = ones number) ∨ (∃ first second, word = sum first second) ∨
      ∃ first second after, word = sum first second ++ '+' :: after := by
  obtain ⟨first, rfl | ⟨rest, rfl, later⟩⟩ := isInput.exists_ones
  · exact .inl ⟨first, rfl⟩
  · obtain ⟨second, rfl | ⟨after, rfl, -⟩⟩ := later.exists_ones
    · exact .inr (.inl ⟨first, second, rfl⟩)
    · exact .inr (.inr ⟨first, second, after, by simp [sum]⟩)

@[simp]
theorem length_ones (number : Nat) : (ones number).length = number :=
  List.length_replicate

@[simp]
theorem length_sum (first second : Nat) : (sum first second).length = first + second + 1 := by
  simp [sum, Nat.add_assoc]

/-! ## Paths -/

/-- A number is passed while the machine scans. -/
theorem leads_scan (first : Nat) (after : List Char) :
    Leads unaryAdditionMachine first
      (.ofZippers unaryAdditionMachine 0 0 [⟨[], ones first ++ after⟩])
      (.ofZippers unaryAdditionMachine 0 first [⟨ones first, after⟩]) := by
  have found : unaryAdditionMachine.findRule? 0 ['1'] =
      some ⟨[.literal '1'], ⟨[.keep], [.right], 0⟩⟩ := by decide
  have path := @Ideal.leads_sweep unaryAdditionMachine 0 0 _ _ _ rfl found first [] after
  rwa [Nat.zero_add, List.append_nil] at path

/-- The second number is passed after a one took the place of the plus sign. -/
theorem leads_seek (first second : Nat) (after : List Char) :
    Leads unaryAdditionMachine (first + 1 + second)
      (.ofZippers unaryAdditionMachine 0 0 [⟨[], sum first second ++ after⟩])
      (.ofZippers unaryAdditionMachine 1 (first + 1 + second)
        [⟨ones (first + second + 1), after⟩]) := by
  have foundPlus : unaryAdditionMachine.findRule? 0 ['+'] =
      some ⟨[.literal '+'], ⟨[.put '1'], [.right], 1⟩⟩ := by decide
  have foundOne : unaryAdditionMachine.findRule? 1 ['1'] =
      some ⟨[.literal '1'], ⟨[.keep], [.right], 1⟩⟩ := by decide
  have written : sum first second ++ after = ones first ++ '+' :: (ones second ++ after) := by
    simp [sum]
  have passed : ones (first + second + 1) = ones second ++ '1' :: ones first := by
    rw [Nat.add_right_comm, Nat.add_comm _ second, ones, List.replicate_add]
    rfl
  have replaced := (leads_scan first ('+' :: (ones second ++ after))).step
    (Ideal.step_ofZippers rfl foundPlus rfl rfl)
  rw [written, passed]
  exact replaced.trans (Ideal.leads_sweep rfl foundOne second)

/-- At the end of a sum the last one is erased. -/
theorem leads_sum (first second : Nat) :
    Leads unaryAdditionMachine (first + second + 3)
      (.ofZippers unaryAdditionMachine 0 0 [⟨[], sum first second⟩])
      (.ofZippers unaryAdditionMachine 3 (first + second + 3) [⟨ones (first + second), ['_']⟩]) := by
  have foundEnd : unaryAdditionMachine.findRule? 1 ['_'] =
      some ⟨[.literal '_'], ⟨[.keep], [.left], 2⟩⟩ := by decide
  have foundLast : unaryAdditionMachine.findRule? 2 ['1'] =
      some ⟨[.literal '1'], ⟨[.put '_'], [.stay], 3⟩⟩ := by decide
  have sought := leads_seek first second []
  rw [List.append_nil, Nat.add_right_comm] at sought
  have returned : Leads unaryAdditionMachine (first + second + 2)
      (.ofZippers unaryAdditionMachine 0 0 [⟨[], sum first second⟩])
      (.ofZippers unaryAdditionMachine 2 (first + second + 2) [⟨ones (first + second), ['1']⟩]) :=
    sought.step (Ideal.step_ofZippers rfl foundEnd rfl rfl)
  exact returned.step (Ideal.step_ofZippers rfl foundLast rfl rfl)

/-! ## Runs -/

/-- A sum is accepted with its value on the tape. -/
theorem report_sum (enough : first + second + 3 ≤ config.maxSteps) :
    (unaryAdditionMachine.runOn config [String.ofList (sum first second)]).map
        unaryAdditionMachine.report = .ok
      { result :=
          { outcome := .accepted
            state := "done"
            steps := first + second + 3
            heads := [first + second]
            symbols := ['_'] }
        tapes := [String.ofList (ones (first + second))] } := by
  have trimmed : Tape.trimBlanks '_' ((ones (first + second)).reverse ++ ['_']) =
      ones (first + second) := by
    rw [Tape.trimBlanks_append_singleton, if_pos rfl, ones, List.reverse_replicate,
      Tape.trimBlanks_eq_self (by simp)]
  have report := load_unaryAddition.2.report_of_leads [sum first second] rfl
    (leads_sum first second) rfl enough
  simp only [List.map_cons, List.map_nil, length_ones] at report
  rw [← trimmed]
  exact report

/-- A path that stays within a word and ends where no rule is found rejects the word. -/
theorem exists_rejection {state count : Nat} {zipper : Ideal.Zipper}
    (leads : Leads unaryAdditionMachine count
      (.ofZippers unaryAdditionMachine 0 0 [⟨[], word⟩])
      (.ofZippers unaryAdditionMachine state count [zipper]))
    (moves : unaryAdditionMachine.isAccepting state = false)
    (unmatched : unaryAdditionMachine.findRule? state [zipper.read '_'] = none)
    (inside : count ≤ word.length) (enough : word.length ≤ config.maxSteps) :
    ∃ report, (unaryAdditionMachine.runOn config [String.ofList word]).map
        unaryAdditionMachine.report = .ok report ∧
      report.result.outcome = .rejected ∧ report.result.steps ≤ word.length :=
  ⟨_, load_unaryAddition.2.report_of_leads [word] rfl leads
    (Ideal.step_ofZippers_eq_none moves unmatched rfl) (inside.trans enough), rfl, inside⟩

/-- Words that are not sums are rejected. -/
theorem exists_rejection_of_ne_sum (isInput : IsInput word)
    (other : ∀ first second, word ≠ sum first second) (enough : word.length ≤ config.maxSteps) :
    ∃ report, (unaryAdditionMachine.runOn config [String.ofList word]).map
        unaryAdditionMachine.report = .ok report ∧
      report.result.outcome = .rejected ∧ report.result.steps ≤ word.length := by
  obtain ⟨number, rfl⟩ | ⟨first, second, rfl⟩ | ⟨first, second, after, rfl⟩ := isInput.cases_sum
  · have scanned := leads_scan number []
    rw [List.append_nil] at scanned
    have unmatched : unaryAdditionMachine.findRule? 0 ['_'] = none := by decide
    exact exists_rejection scanned rfl unmatched (length_ones number).ge enough
  · exact absurd rfl (other first second)
  · have unmatched : unaryAdditionMachine.findRule? 1 ['+'] = none := by decide
    refine exists_rejection (leads_seek first second ('+' :: after)) rfl unmatched ?_ enough
    rw [List.length_append, length_sum]
    omega

end UnaryAddition

open UnaryAddition

/-- The unary addition machine of the catalog accepts the sums of two numbers and no other words
over its input alphabet. A sum leaves its value on the tape, and any other word is given up before
the machine has gone beyond it. -/
theorem unaryAddition_accepts_sums (word : List Char) (isInput : ∀ c ∈ word, c = '1' ∨ c = '+')
    (config : RunConfig) (enough : word.length + 2 ≤ config.maxSteps) :
    ∃ entry ∈ entries, entry.source = unaryAddition ∧
      entry.format.load entry.source = .ok entry.machine ∧
      ∃ report, (entry.machine.runOn config [String.ofList word]).map entry.machine.report =
          .ok report ∧
        (report.result.outcome = .accepted ↔ ∃ first second, word = sum first second) ∧
        (∀ first second, word = sum first second →
          report.result.steps = first + second + 3 ∧
          report.tapes = [String.ofList (ones (first + second))]) ∧
        ((¬ ∃ first second, word = sum first second) →
          report.result.outcome = .rejected ∧ report.result.steps ≤ word.length) := by
  have listed : { source := unaryAddition, format := .json, sample := ["11+1"] } ∈ sources := by
    simp [sources]
  refine ⟨_, mem_entries_of_load listed load_unaryAddition.1, rfl, load_unaryAddition.1, ?_⟩
  by_cases isSum : ∃ first second, word = sum first second
  · obtain ⟨first, second, rfl⟩ := isSum
    rw [length_sum] at enough
    refine ⟨_, report_sum (by omega), ?_, ?_, ?_⟩
    · exact ⟨fun _ => ⟨first, second, rfl⟩, fun _ => rfl⟩
    · intro third fourth same
      have lengths := congrArg List.length same
      rw [length_sum, length_sum] at lengths
      have value : third + fourth = first + second := by omega
      rw [value]
      exact ⟨rfl, rfl⟩
    · intro other
      exact absurd ⟨first, second, rfl⟩ other
  · have other (first second : Nat) : word ≠ sum first second :=
      fun same => isSum ⟨first, second, same⟩
    obtain ⟨report, reported, rejected, inside⟩ :=
      exists_rejection_of_ne_sum isInput other (by omega : word.length ≤ config.maxSteps)
    refine ⟨report, reported, ?_, ?_, ?_⟩
    · rw [rejected]
      exact ⟨fun accepted => Outcome.noConfusion accepted, fun sums => absurd sums isSum⟩
    · intro first second same
      exact absurd same (other first second)
    · exact fun _ => ⟨rejected, inside⟩

/-- The sample input of the catalog is accepted after six steps. -/
theorem unaryAddition_accepts_sample : ∃ entry ∈ entries, entry.source = unaryAddition ∧
    ∃ report, (entry.machine.runOn {} ["11+1"]).map entry.machine.report = .ok report ∧
      report.result.outcome = .accepted ∧ report.result.steps = 6 ∧ report.tapes = ["111"] := by
  obtain ⟨entry, listed, source, -, report, ran, accepts, adds, -⟩ :=
    unaryAddition_accepts_sums ['1', '1', '+', '1'] (by simp) {} (by simp)
  obtain ⟨steps, tapes⟩ := adds 2 1 rfl
  exact ⟨entry, listed, source, report, ran, accepts.mpr ⟨2, 1, rfl⟩, steps, tapes⟩

end TapeMachine.Catalog
