import Mathlib.Data.List.GetD
import TapeMachine.Proofs.Catalog.Sources
import TapeMachine.Proofs.Run.Ideal

/-!
# The palindrome machine

The machine marks the left end of its second tape, copies the input behind the mark, moves the
second head back to the mark and then reads the copy forwards while it reads the input backwards.
Each of these four phases is followed on the ideal tapes, where the two tapes always hold a word
each, so a configuration is given by the state, the number of steps, the two words and the two
heads.
-/

namespace TapeMachine.Catalog

/-- The machine that the source of the catalog describes. -/
def palindromeMachine : Machine where
  name := "Palindrome"
  summary := ""
  states := #[
    { name := "mark", accepting := false
      rules := [
        { pattern := [.any, .literal '_']
          action := { writes := [.keep, .put '$'], moves := [.stay, .right], next := 1 } }] },
    { name := "copy", accepting := false
      rules := [
        { pattern := [.literal 'a', .literal '_']
          action := { writes := [.keep, .put 'a'], moves := [.right, .right], next := 1 } },
        { pattern := [.literal 'b', .literal '_']
          action := { writes := [.keep, .put 'b'], moves := [.right, .right], next := 1 } },
        { pattern := [.literal '_', .literal '_']
          action := { writes := [.keep, .keep], moves := [.left, .stay], next := 2 } }] },
    { name := "rewind", accepting := false
      rules := [
        { pattern := [.any, .literal '$']
          action := { writes := [.keep, .keep], moves := [.stay, .right], next := 3 } },
        { pattern := [.any, .any]
          action := { writes := [.keep, .keep], moves := [.stay, .left], next := 2 } }] },
    { name := "compare", accepting := false
      rules := [
        { pattern := [.literal 'a', .literal 'a']
          action := { writes := [.keep, .keep], moves := [.left, .right], next := 3 } },
        { pattern := [.literal 'b', .literal 'b']
          action := { writes := [.keep, .keep], moves := [.left, .right], next := 3 } },
        { pattern := [.any, .literal '_']
          action := { writes := [.keep, .keep], moves := [.stay, .stay], next := 4 } }] },
    { name := "yes", accepting := true, rules := [] }]
  inputAlphabet := ['a', 'b']
  tapeAlphabet := ['a', 'b', '$', '_']
  tapeCount := 2
  blank := '_'
  wildcard := '*'
  unchanged := '*'
  initial := 0

/-- The source of the catalog loads as this machine. -/
theorem load_palindrome :
    Format.listing.load palindrome = .ok palindromeMachine ∧ palindromeMachine.WellFormed := by
  -- Spelling out the source comes first: the other goals are about its characters.
  apply Listing.load_of_compile?
  case spelled =>
    unfold palindrome
    iterate 22
      apply Text.append_eq_ofList
      case spelledSecond => rfl
    rfl
  case small => decide +kernel
  case compiled => decide +kernel

namespace Palindrome

variable {word copy : List Char} {steps front back : Nat}

/-- The words over the input alphabet. -/
def IsInput (word : List Char) : Prop :=
  ∀ c ∈ word, c = 'a' ∨ c = 'b'

/-- The tapes hold two words, and the heads stand at the given positions. -/
def phase (state steps : Nat) (word copy : List Char) (front back : Nat) :
    Ideal.Configuration where
  state := state
  steps := steps
  tapes := [.holding word '_' front, .holding copy '_' back]

/-- One step of the machine, from the rule that is found for the two symbols it reads. -/
theorem step_phase {state : Nat} {rule : Rule} {symbol other : Char} {next : Ideal.Configuration}
    (moves : palindromeMachine.isAccepting state = false)
    (reads : word.getD front '_' = symbol) (readsOther : copy.getD back '_' = other)
    (found : palindromeMachine.findRule? state [symbol, other] = some rule)
    (applied : (phase state steps word copy front back).apply rule.action = next) :
    Ideal.step palindromeMachine (phase state steps word copy front back) = (.applied, next) := by
  subst reads readsOther applied
  exact Ideal.step_of_findRule? moves found

/-- The letters of an input are those of its alphabet. -/
theorem IsInput.getElem_mem (isInput : IsInput word) {position : Nat}
    (inside : position < word.length) : word[position] ∈ ['a', 'b'] := by
  simpa using isInput _ (List.getElem_mem inside)

/-- Behind an input there are blanks. -/
theorem IsInput.getD_mem (isInput : IsInput word) (position : Nat) :
    word.getD position '_' ∈ ['a', 'b', '_'] := by
  rcases lt_or_ge position word.length with inside | behind
  · rw [List.getD_eq_getElem _ _ inside]
    exact List.mem_append_left ['_'] (isInput.getElem_mem inside)
  · rw [List.getD_eq_default _ _ behind]
    simp

/-! ## Marking and copying -/

theorem findRule?_mark : ∀ symbol ∈ ['a', 'b', '_'],
    palindromeMachine.findRule? 0 [symbol, '_'] =
      some ⟨[.any, .literal '_'], [.keep, .put '$'], [.stay, .right], 1⟩ := by
  simp only [List.forall_mem_cons, List.not_mem_nil, false_implies, implies_true, and_true]
  decide

theorem findRule?_copy : ∀ symbol ∈ ['a', 'b'],
    palindromeMachine.findRule? 1 [symbol, '_'] =
      some ⟨[.literal symbol, .literal '_'], [.keep, .put symbol], [.right, .right], 1⟩ := by
  simp only [List.forall_mem_cons, List.not_mem_nil, false_implies, implies_true, and_true]
  decide

/-- A symbol that is written on the second tape shows up there. -/
theorem apply_put {state next : Nat} {symbol : Char} {longer : List Char} {direction : Direction}
    (written : (Ideal.Tape.holding copy '_' back).write symbol = .holding longer '_' back) :
    (phase state steps word copy front back).apply
        ⟨[.keep, .put symbol], [direction, .right], next⟩ =
      ⟨next, steps + 1,
        [(Ideal.Tape.holding word '_' front).move direction, .holding longer '_' (back + 1)]⟩ := by
  have acted : (Ideal.Tape.holding copy '_' back).act (.put symbol) .right =
      .holding longer '_' (back + 1) := by
    rw [Ideal.Tape.act, written]
    rfl
  rw [← acted]
  rfl

/-- The first step marks the left end of the second tape. -/
theorem step_mark (isInput : IsInput word) :
    Ideal.step palindromeMachine (phase 0 0 word [] 0 0) = (.applied, phase 1 1 word ['$'] 0 1) :=
  step_phase rfl rfl rfl (findRule?_mark _ (isInput.getD_mem 0))
    (apply_put (Ideal.Tape.write_holding [] '_' '$'))

/-- The symbols before the head of the input are copied. -/
theorem leads_copy (isInput : IsInput word) {count : Nat} (inside : count ≤ word.length) :
    Ideal.Leads palindromeMachine count (phase 1 1 word ['$'] 0 1)
      (phase 1 (1 + count) word ('$' :: word.take count) count (1 + count)) := by
  induction count with
  | zero => exact .refl _
  | succ count ih =>
      have length : ('$' :: word.take count).length = 1 + count := by
        rw [List.length_cons, List.length_take]
        omega
      have longer := Ideal.Tape.write_holding ('$' :: word.take count) '_' word[count]
      rw [length, List.cons_append, List.take_append_getElem] at longer
      refine (ih (by omega)).step (step_phase rfl (List.getD_eq_getElem _ _ inside)
        (List.getD_eq_default _ _ (by omega)) (findRule?_copy _ (isInput.getElem_mem inside)) ?_)
      exact apply_put longer

/-! ## Going back to the mark -/

theorem findRule?_copied : palindromeMachine.findRule? 1 ['_', '_'] =
    some ⟨[.literal '_', .literal '_'], [.keep, .keep], [.left, .stay], 2⟩ := by
  decide

theorem findRule?_rewind : ∀ symbol ∈ ['a', 'b', '_'], ∀ other ∈ ['a', 'b', '_'],
    palindromeMachine.findRule? 2 [symbol, other] =
      some ⟨[.any, .any], [.keep, .keep], [.stay, .left], 2⟩ := by
  simp only [List.forall_mem_cons, List.not_mem_nil, false_implies, implies_true, and_true]
  decide

theorem findRule?_marked : ∀ symbol ∈ ['a', 'b', '_'],
    palindromeMachine.findRule? 2 [symbol, '$'] =
      some ⟨[.any, .literal '$'], [.keep, .keep], [.stay, .right], 3⟩ := by
  simp only [List.forall_mem_cons, List.not_mem_nil, false_implies, implies_true, and_true]
  decide

/-- Behind the word, the machine turns to its last letter. -/
theorem step_copied :
    Ideal.step palindromeMachine
        (phase 1 steps word ('$' :: word) word.length (1 + word.length)) =
      (.applied, phase 2 (steps + 1) word ('$' :: word) (word.length - 1) (1 + word.length)) :=
  step_phase rfl (List.getD_eq_default _ _ le_rfl)
    (List.getD_eq_default _ _ (by rw [List.length_cons]; omega)) findRule?_copied rfl

/-- The second head goes back as long as there is no mark under it. -/
theorem leads_rewind (isInput : IsInput word) :
    Ideal.Leads palindromeMachine back (phase 2 steps word ('$' :: word) front back)
      (phase 2 (steps + back) word ('$' :: word) front 0) := by
  induction back generalizing steps with
  | zero => exact .refl _
  | succ back ih =>
      have first : Ideal.step palindromeMachine
          (phase 2 steps word ('$' :: word) front (back + 1)) =
          (.applied, phase 2 (steps + 1) word ('$' :: word) front back) :=
        step_phase rfl rfl List.getD_cons_succ
          (findRule?_rewind _ (isInput.getD_mem front) _ (isInput.getD_mem back)) rfl
      have path := Ideal.Leads.head first ih
      rwa [Nat.add_right_comm] at path

/-! ## Comparing -/

theorem findRule?_compare : ∀ symbol ∈ ['a', 'b'],
    palindromeMachine.findRule? 3 [symbol, symbol] =
      some ⟨[.literal symbol, .literal symbol], [.keep, .keep], [.left, .right], 3⟩ := by
  simp only [List.forall_mem_cons, List.not_mem_nil, false_implies, implies_true, and_true]
  decide

theorem findRule?_differ : ∀ symbol ∈ ['a', 'b'], ∀ other ∈ ['a', 'b'], symbol ≠ other →
    palindromeMachine.findRule? 3 [symbol, other] = none := by
  simp only [List.forall_mem_cons, List.not_mem_nil, false_implies, implies_true, and_true]
  decide

theorem findRule?_compared : ∀ symbol ∈ ['a', 'b', '_'],
    palindromeMachine.findRule? 3 [symbol, '_'] =
      some ⟨[.any, .literal '_'], [.keep, .keep], [.stay, .stay], 4⟩ := by
  simp only [List.forall_mem_cons, List.not_mem_nil, false_implies, implies_true, and_true]
  decide

/-- Whether a word has the same letter at a position and at its mirror image. -/
def Mirrors (word : List Char) (position : Nat) : Prop :=
  word[position]? = word[word.length - 1 - position]?

/-- The copy stands one cell to the right of the word. -/
theorem getD_copy {position : Nat} (inside : position < word.length) :
    ('$' :: word).getD (1 + position) '_' = word[position] := by
  rw [Nat.add_comm, List.getD_cons_succ, List.getD_eq_getElem _ _ inside]

/-- The input up to where the comparison starts. -/
theorem leads_to_compare (isInput : IsInput word) :
    Ideal.Leads palindromeMachine (2 * word.length + 4)
      (Ideal.start palindromeMachine [String.ofList word])
      (phase 3 (2 * word.length + 4) word ('$' :: word) (word.length - 1) 1) := by
  have start : Ideal.start palindromeMachine [String.ofList word] = phase 0 0 word [] 0 0 := by
    simp [Ideal.start, palindromeMachine, phase, List.range_succ, Ideal.Tape.holding,
      Ideal.Tape.seeded]
  have marked := (Ideal.Leads.refl _).step (step_mark isInput)
  have copied := leads_copy isInput le_rfl
  rw [List.take_length] at copied
  have rewound := ((marked.trans copied).step step_copied).trans (leads_rewind isInput)
  have steps : 1 + word.length + 1 + (1 + word.length) + 1 = 2 * word.length + 4 := by omega
  have compares : Ideal.Leads palindromeMachine
      (0 + 1 + word.length + 1 + (1 + word.length) + 1) (phase 0 0 word [] 0 0)
      (phase 3 (1 + word.length + 1 + (1 + word.length) + 1) word ('$' :: word)
        (word.length - 1) 1) :=
    rewound.step (step_phase rfl rfl List.getD_cons_zero
      (findRule?_marked _ (isInput.getD_mem _)) rfl)
  rwa [Nat.zero_add, steps, ← start] at compares

/-- The heads move on as long as the letters under them are the same. -/
theorem leads_compare (isInput : IsInput word) {count : Nat} (inside : count ≤ word.length)
    (mirrors : ∀ position < count, Mirrors word position) :
    Ideal.Leads palindromeMachine count
      (phase 3 (2 * word.length + 4) word ('$' :: word) (word.length - 1) 1)
      (phase 3 (2 * word.length + 4 + count) word ('$' :: word) (word.length - 1 - count)
        (1 + count)) := by
  induction count with
  | zero => exact .refl _
  | succ count ih =>
      have same : word.getD (word.length - 1 - count) '_' = word[count] := by
        rw [List.getD_eq_getElem?_getD, ← mirrors count (by omega), List.getElem?_eq_getElem inside]
        rfl
      have prior := ih (by omega) fun position less => mirrors position (by omega)
      exact prior.step (step_phase rfl same (getD_copy inside)
        (findRule?_compare _ (isInput.getElem_mem inside)) rfl)

/-! ## Runs -/

/-- A run on a word ends like this, with the word and its marked copy on the tapes. -/
def Ends (machine : Machine) (config : RunConfig) (word : List Char) (outcome : Outcome)
    (state : String) (steps : Nat) : Prop :=
  ∃ finish, machine.runOn config [String.ofList word] = .ok finish ∧
    finish.outcome = outcome ∧
    (finish.result machine).state = state ∧
    (finish.result machine).steps = steps ∧
    TapeBank.contents finish.configuration.tapes true =
      [String.ofList word, String.ofList ('$' :: word)]

/-- A halt of the ideal machine in the comparison or behind it is the end of a run. -/
theorem ends_of_leads (isInput : IsInput word) {state count : Nat}
    (leads : Ideal.Leads palindromeMachine count
      (phase 3 (2 * word.length + 4) word ('$' :: word) (word.length - 1) 1)
      (phase state (2 * word.length + 4 + count) word ('$' :: word) front back))
    {halt : Halt} (halts : (Ideal.step palindromeMachine
      (phase state (2 * word.length + 4 + count) word ('$' :: word) front back)).1 = .halted halt)
    {config : RunConfig} (within : 2 * word.length + 4 + count ≤ config.maxSteps) :
    Ends palindromeMachine config word halt.outcome (palindromeMachine.stateName state)
      (2 * word.length + 4 + count) := by
  have fit : [String.ofList word].length ≤ palindromeMachine.tapeCount := Nat.le_succ 1
  obtain ⟨finish, ran, sound, ended, result⟩ := load_palindrome.2.runOn_of_leads fit
    ((leads_to_compare isInput).trans leads) halts within
  refine ⟨finish, ran, congrArg RunResult.outcome result, congrArg RunResult.state result,
    congrArg RunResult.steps result, ?_⟩
  have cells : finish.configuration.ideal.tapes.map Ideal.Tape.cells =
      [word, '$' :: word].map fun held => (Ideal.Tape.seeded held '_').cells := by
    rw [ended]
    rfl
  have absent : '_' ∉ '$' :: word := by
    intro inside
    rcases List.mem_cons.mp inside with mark | letter
    · cases mark
    · simpa using isInput _ letter
  have trimmed (held : List Char) (within : held ⊆ '$' :: word) :
      Tape.trimBlanks palindromeMachine.blank held = held :=
    Tape.trimBlanks_eq_self fun inside => absent (within inside)
  rw [sound.contents_eq cells, List.map_cons, List.map_cons, List.map_nil,
    trimmed word (List.subset_cons_self _ _), trimmed _ (List.Subset.refl _)]

/-- A word that is its own mirror image is accepted. -/
theorem ends_accepted (isInput : IsInput word)
    (mirrors : ∀ position < word.length, Mirrors word position) {config : RunConfig}
    (enough : 3 * word.length + 5 ≤ config.maxSteps) :
    Ends palindromeMachine config word .accepted "yes" (3 * word.length + 5) := by
  have behind : ('$' :: word).getD (1 + word.length) '_' = '_' :=
    List.getD_eq_default _ _ (by rw [List.length_cons]; omega)
  have steps : 3 * word.length + 5 = 2 * word.length + 4 + (word.length + 1) := by omega
  rw [steps] at enough ⊢
  have last : Ideal.step palindromeMachine (phase 3 (2 * word.length + 4 + word.length) word
      ('$' :: word) (word.length - 1 - word.length) (1 + word.length)) =
      (.applied, phase 4 (2 * word.length + 4 + (word.length + 1)) word ('$' :: word)
        (word.length - 1 - word.length) (1 + word.length)) :=
    step_phase rfl rfl behind (findRule?_compared _ (isInput.getD_mem _)) rfl
  exact ends_of_leads isInput ((leads_compare isInput le_rfl mirrors).step last) rfl enough

/-- A word is rejected at the first position where it differs from its mirror image. -/
theorem ends_rejected (isInput : IsInput word) {index : Nat}
    (first : IsLeast { position | position < word.length ∧ ¬ Mirrors word position } index)
    {config : RunConfig} (enough : 3 * word.length + 5 ≤ config.maxSteps) :
    Ends palindromeMachine config word .rejected "compare" (2 * word.length + 4 + index) := by
  obtain ⟨⟨inside, differs⟩, least⟩ := first
  have mirrors (position : Nat) (less : position < index) : Mirrors word position := by
    by_contra early
    have later := least ⟨less.trans inside, early⟩
    omega
  have opposite : word.length - 1 - index < word.length := by omega
  have different : word[word.length - 1 - index] ≠ word[index] := by
    intro same
    refine differs ?_
    rw [Mirrors, List.getElem?_eq_getElem inside, List.getElem?_eq_getElem opposite, same]
  refine ends_of_leads isInput (leads_compare isInput inside.le mirrors)
    (Ideal.step_of_findRule?_eq_none rfl ?_) (by omega)
  have unmatched := findRule?_differ _ (isInput.getElem_mem opposite) _
    (isInput.getElem_mem inside) different
  rw [← List.getD_eq_getElem word '_' opposite, ← getD_copy inside] at unmatched
  exact unmatched

/-- A word is its own reverse if it is its own mirror image at every position. -/
theorem eq_reverse_iff_mirrors (word : List Char) :
    word = word.reverse ↔ ∀ position < word.length, Mirrors word position := by
  constructor
  · intro same position inside
    calc word[position]? = word.reverse[position]? := congrArg (·[position]?) same
      _ = word[word.length - 1 - position]? := List.getElem?_reverse inside
  · intro mirrors
    refine List.ext_getElem? fun position => ?_
    rcases lt_or_ge position word.length with inside | behind
    · rw [List.getElem?_reverse inside]
      exact mirrors position inside
    · rw [List.getElem?_eq_none behind, List.getElem?_eq_none (by simpa using behind)]

end Palindrome

open Palindrome

/-- The palindrome machine of the catalog decides whether a word is its own reverse. A word that is
not is given up at the first position where it differs from its mirror image. -/
theorem palindrome_decides (word : List Char) (isInput : ∀ c ∈ word, c = 'a' ∨ c = 'b')
    (config : RunConfig) (enough : 3 * word.length + 5 ≤ config.maxSteps) :
    ∃ entry ∈ entries, entry.source = palindrome ∧
      entry.format.load entry.source = .ok entry.machine ∧
      (word = word.reverse →
        Ends entry.machine config word .accepted "yes" (3 * word.length + 5)) ∧
      (word ≠ word.reverse → ∃ index,
        IsLeast { index | index < word.length ∧ word[index]? ≠ word[word.length - 1 - index]? }
          index ∧
        Ends entry.machine config word .rejected "compare" (2 * word.length + 4 + index)) := by
  have listed : { source := palindrome, format := .listing, sample := ["abba"] } ∈ sources := by
    simp [sources]
  refine ⟨_, mem_entries_of_load listed load_palindrome.1, rfl, load_palindrome.1, ?_, ?_⟩
  · intro same
    exact ends_accepted isInput ((eq_reverse_iff_mirrors word).mp same) enough
  · intro different
    have differs : ∃ position, position < word.length ∧ ¬ Mirrors word position := by
      by_contra mirrors
      refine different ((eq_reverse_iff_mirrors word).mpr fun position inside => ?_)
      by_contra differ
      exact mirrors ⟨position, inside, differ⟩
    classical
    have first : IsLeast { position | position < word.length ∧ ¬ Mirrors word position }
        (Nat.find differs) :=
      ⟨Nat.find_spec differs, fun _ later => Nat.find_min' differs later⟩
    exact ⟨_, first, ends_rejected isInput first enough⟩

/-- The sample input of the catalog is accepted after seventeen steps. -/
theorem palindrome_decides_sample : ∃ entry ∈ entries, entry.source = palindrome ∧
    Ends entry.machine {} ['a', 'b', 'b', 'a'] .accepted "yes" 17 := by
  obtain ⟨entry, listed, source, -, accepts, -⟩ :=
    palindrome_decides ['a', 'b', 'b', 'a'] (by simp) {} (by simp)
  exact ⟨entry, listed, source, accepts rfl⟩

end TapeMachine.Catalog
