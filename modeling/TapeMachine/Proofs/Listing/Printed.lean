import TapeMachine.Proofs.Listing.Grammar
import TapeMachine.Proofs.Listing.PrintedLayout
import TapeMachine.Proofs.Machine.NormalForm
import TapeMachine.Proofs.Numerals

/-!
# Printed machines are read back

The listing of a machine is the text of a program, and the meaning of that program is the written
form of the machine, up to its summary and its token for kept cells. This needs names that a listing
can hold; it needs nothing of the symbols.
-/

namespace TapeMachine

open Listing (Header PlainName RuleLine)

namespace Machine

variable {machine : Machine}

/-- The machine as a listing keeps it: without summary, and with the wildcard for kept cells. -/
def listed (machine : Machine) : Machine :=
  { machine with summary := "", unchanged := machine.wildcard }

/-- What a listing keeps of a well-formed machine is well formed. -/
theorem WellFormed.listed (wellFormed : machine.WellFormed) : machine.listed.WellFormed := by
  obtain ⟨proper, initial, rules, distinctPatterns⟩ := wellFormed
  refine ⟨⟨proper.tapes, proper.states, proper.named, proper.distinctStates, proper.distinctTape,
    proper.distinctInput, proper.input, proper.blank, proper.wildcard, proper.wildcard,
    proper.separator⟩, initial, ?_, distinctPatterns⟩
  intro entry member rule listed
  obtain ⟨components, pattern, writeCount, writes, moveCount, next⟩ :=
    rules entry member rule listed
  exact ⟨components, fun component inside => by
      cases component <;> exact pattern _ inside, writeCount,
    fun write inside => by cases write <;> exact writes _ inside, moveCount, next⟩

/-- The headers of a machine. -/
def headers (machine : Machine) : List Header :=
  (if machine.name = "" then [] else [.name machine.name.toList]) ++ [
    .tapes (Nat.toDigits 10 machine.tapeCount),
    .blank machine.blank,
    .wildcard machine.wildcard,
    .states machine.stateNames,
    .input machine.inputAlphabet,
    .alphabet machine.tapeAlphabet,
    .start (machine.stateName machine.initial),
    .accept machine.acceptingNames]

/-- A rule of a machine as a listing writes it. -/
def ruleLine (machine : Machine) (rule : Rule) : RuleLine where
  reads := rule.pattern.written machine.wildcard
  writes := rule.action.writes.map (Write.written machine.wildcard)
  moves := rule.action.moves
  next := machine.stateName rule.action.next

/-- The states that get a block: those with rules, or the initial state if no state has any. -/
def listedEntries (machine : Machine) : List StateEntry :=
  match machine.states.toList.filter (!·.rules.isEmpty) with
  | [] => machine.states[machine.initial]?.toList
  | entries => entries

/-- What the block of a state says. -/
def blockContent (machine : Machine) (entry : StateEntry) : String × List RuleLine :=
  (entry.name, entry.rules.map machine.ruleLine)

/-- A machine without rules lists its initial state. -/
theorem WellFormed.listedEntries_of_ruleless (wellFormed : machine.WellFormed)
    (ruleless : machine.states.toList.filter (!·.rules.isEmpty) = []) :
    ∃ entry, machine.states[machine.initial]? = some entry ∧ entry.rules = [] ∧
      machine.listedEntries = [entry] := by
  have inside := wellFormed.initial
  have found : machine.states[machine.initial]? = some machine.states[machine.initial] :=
    Array.getElem?_eq_getElem inside
  refine ⟨machine.states[machine.initial], found, ?_, ?_⟩
  · by_contra nonempty
    have kept : machine.states[machine.initial] ∈
        machine.states.toList.filter (!·.rules.isEmpty) :=
      List.mem_filter.mpr ⟨by simp, by simpa using nonempty⟩
    rw [ruleless] at kept
    cases kept
  · simp [listedEntries, ruleless, found]

/-- A machine with rules lists the states that have some. -/
theorem listedEntries_of_rules
    (rules : machine.states.toList.filter (!·.rules.isEmpty) ≠ []) :
    machine.listedEntries = machine.states.toList.filter (!·.rules.isEmpty) := by
  unfold listedEntries
  split
  case h_1 ruleless => exact absurd ruleless rules
  case h_2 => rfl

/-- Every listing has a block, that of the initial state if no state has rules. -/
theorem WellFormed.listedEntries_ne_nil (wellFormed : machine.WellFormed) :
    machine.listedEntries ≠ [] := by
  by_cases ruleless : machine.states.toList.filter (!·.rules.isEmpty) = []
  · obtain ⟨entry, -, -, single⟩ := wellFormed.listedEntries_of_ruleless ruleless
    simp [single]
  · rw [listedEntries_of_rules ruleless]
    exact ruleless

/-- Blocks stand in the order of the states. -/
theorem WellFormed.listedEntries_sublist (wellFormed : machine.WellFormed) :
    machine.listedEntries.Sublist machine.states.toList := by
  by_cases ruleless : machine.states.toList.filter (!·.rules.isEmpty) = []
  · obtain ⟨entry, found, -, single⟩ := wellFormed.listedEntries_of_ruleless ruleless
    rw [single]
    exact List.singleton_sublist.mpr (Array.mem_toList_iff.mpr (Array.mem_of_getElem? found))
  · rw [listedEntries_of_rules ruleless]
    exact List.filter_sublist

/-- Every state with rules has a block. -/
theorem mem_listedEntries {entry : StateEntry} (member : entry ∈ machine.states.toList)
    (nonempty : entry.rules ≠ []) : entry ∈ machine.listedEntries := by
  have kept : entry ∈ machine.states.toList.filter (!·.rules.isEmpty) :=
    List.mem_filter.mpr ⟨member, by simpa using nonempty⟩
  rw [listedEntries_of_rules (List.ne_nil_of_mem kept)]
  exact kept

/-! ## The text of a machine -/

/-- The text of a rule is the line of what it says. -/
theorem writeRule_eq (machine : Machine) (rule : Rule) :
    Listing.writeRule machine rule = (machine.ruleLine rule).line := by
  simp [Listing.writeRule, RuleLine.line, RuleLine.form, ruleLine]

/-- The text of a block is the lines of what it says. -/
theorem writeBlock_eq (machine : Machine) (entry : StateEntry) :
    Listing.writeBlock machine entry.name entry.rules =
      Listing.blockLines (machine.blockContent entry) := by
  have rules : entry.rules.flatMap (Listing.writeRule machine) =
      (entry.rules.map machine.ruleLine).flatMap RuleLine.line := by
    rw [List.flatMap_map]
    exact congrArg entry.rules.flatMap (funext (writeRule_eq machine))
  rw [Listing.writeBlock, Listing.blockLines, rules]
  rfl

/-- The text of all blocks is the lines of what they say. -/
theorem WellFormed.writeBlocks_eq (wellFormed : machine.WellFormed) :
    Listing.writeBlocks machine =
      (machine.listedEntries.map machine.blockContent).flatMap Listing.blockLines := by
  simp only [List.flatMap_map, ← writeBlock_eq]
  unfold Listing.writeBlocks
  split
  case h_1 ruleless =>
      obtain ⟨entry, found, none, single⟩ := wellFormed.listedEntries_of_ruleless ruleless
      simp [single, stateName, found, none]
  case h_2 rules => rw [listedEntries_of_rules rules]

/-- The text before the rules is the lines of the headers. -/
theorem flatMap_line_headers (machine : Machine) :
    machine.headers.flatMap Header.line =
      (if machine.name = "" then [] else Listing.writeHeader "name" machine.name.toList) ++
      Listing.writeHeader "tapes" (Nat.toDigits 10 machine.tapeCount) ++
      Listing.writeHeader "blank" (Listing.writeSymbol machine.blank) ++
      Listing.writeHeader "wildcard" (Listing.writeSymbol machine.wildcard) ++
      Listing.writeHeader "states" (Listing.writeNames machine.stateNames) ++
      Listing.writeHeader "input" (Listing.writeSymbols machine.inputAlphabet) ++
      Listing.writeHeader "alphabet" (Listing.writeSymbols machine.tapeAlphabet) ++
      Listing.writeHeader "start" (machine.stateName machine.initial).toList ++
      Listing.writeHeader "accept" (Listing.writeNames machine.acceptingNames) := by
  have name : (if machine.name = "" then [] else [Header.name machine.name.toList]).flatMap
      Header.line =
      (if machine.name = "" then [] else Listing.writeHeader "name" machine.name.toList) := by
    split <;> simp only [List.flatMap_nil, List.flatMap_singleton, Header.line, Header.keyword,
      Header.value]
  simp only [headers, List.flatMap_append, List.flatMap_cons, List.flatMap_nil, List.append_nil,
    List.append_assoc, Header.line, Header.keyword, Header.value, ← name]

/-- The listing of a machine is the text of its headers and blocks. -/
theorem WellFormed.toList_write (wellFormed : machine.WellFormed) :
    (Listing.write machine).toList =
      Listing.listingOf machine.headers (machine.listedEntries.map machine.blockContent) := by
  have rules : "rules:\n".toList = "rules:".toList ++ ['\n'] := rfl
  unfold Listing.write
  rw [String.toList_ofList, Listing.listingOf, flatMap_line_headers, wellFormed.writeBlocks_eq,
    rules]
  simp only [List.append_assoc, List.cons_append, List.nil_append]

/-! ## Names that a listing can hold -/

/-- The machines whose names a listing can hold: state names of letters, digits, underscores,
hyphens and points, and a trimmed name without line ends and comment marks. -/
structure Listable (machine : Machine) : Prop where
  states : ∀ name ∈ machine.stateNames, ∀ c ∈ name.toList, Listing.NameChar c
  trimmed : Text.trim machine.name.toList = machine.name.toList
  name : ∀ c ∈ machine.name.toList, c ≠ '\n' ∧ c ≠ '\r' ∧ c ≠ '#'

/-- The states of a machine with listable names have plain names. -/
theorem Listable.plainName (listable : machine.Listable) (wellFormed : machine.WellFormed)
    {name : String} (member : name ∈ machine.stateNames) : PlainName name := by
  refine ⟨?_, listable.states name member⟩
  rintro rfl
  exact wellFormed.proper.named member

/-- The name of a state is one of the names of the machine. -/
theorem stateName_mem {state : Nat} (inside : state < machine.states.size) :
    machine.stateName state ∈ machine.stateNames :=
  List.mem_of_getElem? (getElem?_stateNames inside)

/-- A name with characters starts with one that is not skipped, because it is trimmed. -/
theorem Listable.name_writable (listable : machine.Listable) (nonempty : machine.name ≠ "") :
    (Header.name machine.name.toList).Writable := by
  constructor
  · have visible := Text.head?_trim machine.name.toList
    rw [listable.trimmed] at visible
    cases chars : machine.name.toList with
    | nil => exact absurd (by simpa using chars) nonempty
    | cons c others =>
        rw [chars] at visible
        refine ⟨c, others, rfl, ?_⟩
        by_contra filler
        have blank := Listing.isBlank_of_isFiller (by simpa using filler)
        rw [visible c rfl] at blank
        cases blank
  · intro c member
    simpa [Listing.isTextChar, Listing.isLineEnd, and_assoc] using listable.name c member

/-- All headers of a machine with listable names can be written. -/
theorem Listable.headers_writable (listable : machine.Listable) (wellFormed : machine.WellFormed) :
    ∀ header ∈ machine.headers, header.Writable := by
  have digits : (Header.tapes (Nat.toDigits 10 machine.tapeCount)).Writable :=
    ⟨Nat.toDigits_ne_nil, fun c member => Text.isDigit_of_mem_toDigits member⟩
  have states : (Header.states machine.stateNames).Writable :=
    fun name member => listable.plainName wellFormed member
  have start : (Header.start (machine.stateName machine.initial)).Writable :=
    listable.plainName wellFormed (stateName_mem wellFormed.initial)
  have accept : (Header.accept machine.acceptingNames).Writable := by
    intro name member
    obtain ⟨entry, accepting, rfl⟩ := List.mem_map.mp member
    exact listable.plainName wellFormed (List.mem_map_of_mem (List.mem_of_mem_filter accepting))
  intro header member
  rcases List.mem_append.mp member with first | other
  · split at first
    · cases first
    · next nonempty =>
        rw [List.mem_singleton.mp first]
        exact listable.name_writable nonempty
  · simp only [List.mem_cons, List.not_mem_nil, or_false] at other
    rcases other with rfl | rfl | rfl | rfl | rfl | rfl | rfl | rfl
    · exact digits
    · trivial
    · trivial
    · exact states
    · trivial
    · trivial
    · exact start
    · exact accept

/-- All blocks of a machine with listable names can be written. -/
theorem Listable.blocks_writable (listable : machine.Listable) (wellFormed : machine.WellFormed) :
    ∀ content ∈ machine.listedEntries.map machine.blockContent, Listing.BlockWritable content := by
  intro content member
  obtain ⟨entry, listed, rfl⟩ := List.mem_map.mp member
  have inside := wellFormed.listedEntries_sublist.subset listed
  refine ⟨listable.plainName wellFormed (List.mem_map_of_mem inside), ?_⟩
  intro line listed
  obtain ⟨rule, ruleListed, rfl⟩ := List.mem_map.mp listed
  have allowed := wellFormed.rules entry inside rule ruleListed
  constructor
  · have count : 0 < rule.action.moves.length := by
      rw [allowed.moveCount]
      exact wellFormed.proper.tapes
    exact List.ne_nil_of_length_pos count
  · have next : rule.action.next < machine.states.size := by
      simpa [signature, stateNames] using allowed.next
    exact listable.plainName wellFormed (stateName_mem next)

/-! ## The meaning of a printed machine -/

/-- What the headers of a machine settle. -/
def heading (machine : Machine) : Listing.Heading where
  name := if machine.name = "" then none else some machine.name.toList
  tapes := some machine.tapeCount
  blank := some machine.blank
  wildcard := some machine.wildcard
  states := some machine.stateNames
  input := some machine.inputAlphabet
  alphabet := some machine.tapeAlphabet
  start := some (machine.stateName machine.initial)
  accept := some machine.acceptingNames

/-- The headers of a machine settle what the machine has. -/
theorem Listable.foldlM_headers (listable : machine.Listable)
    (fits : machine.tapeCount < Text.wordLimit) :
    machine.headers.foldlM Listing.Heading.declare {} = .ok machine.heading := by
  have tapes := Text.wordOfDigits?_toDigits fits
  by_cases empty : machine.name = ""
  · simp [headers, heading, empty, Listing.Heading.declare, Listing.Heading.declares,
      Listing.Heading.set, tapes, bind, Except.bind, pure, Except.pure]
  · simp [headers, heading, empty, Listing.Heading.declare, Listing.Heading.declares,
      Listing.Heading.set, tapes, listable.trimmed, bind, Except.bind, pure, Except.pure]

/-- What the listing says of a rule is its table entry. -/
theorem entry_ruleLine (machine : Machine) (rule : Rule) :
    (machine.ruleLine rule).entry =
      (rule.pattern.render machine.wildcard, machine.listed.actionRecord rule.action) := by
  simp only [RuleLine.entry, ruleLine, actionRecord, listed, List.map_map]
  rfl

/-- What the listing says of a state is its table. -/
theorem contentEntry_blockContent (machine : Machine) (entry : StateEntry) :
    Listing.contentEntry (machine.blockContent entry) =
      (entry.name, machine.listed.ruleTable entry.rules) := by
  simp only [Listing.contentEntry, blockContent, List.map_map, ruleTable]
  congr 1
  exact List.map_congr_left fun rule _ => entry_ruleLine machine rule

/-- The headers and blocks of a machine mean its written form. -/
theorem toDocument_heading (machine : Machine) :
    machine.heading.toDocument (machine.stateName machine.initial)
        (machine.listedEntries.map machine.blockContent) =
      machine.listed.writtenWith machine.listedEntries := by
  have transitions : (machine.listedEntries.map machine.blockContent).map Listing.contentEntry =
      machine.listedEntries.map fun entry =>
        (entry.name, machine.listed.ruleTable entry.rules) := by
    rw [List.map_map]
    exact List.map_congr_left fun entry _ => contentEntry_blockContent machine entry
  have name : String.ofList (machine.heading.name.getD []) = machine.name := by
    simp only [heading]
    split
    case isTrue empty => exact empty.symm
    case isFalse => exact String.ofList_toList
  simp only [Listing.Heading.toDocument, transitions, name]
  rfl

/-- The listed rules of a machine have equally many reads, writes and movements. -/
theorem WellFormed.balanced (wellFormed : machine.WellFormed) :
    ∀ content ∈ machine.listedEntries.map machine.blockContent, ∀ rule ∈ content.2,
      rule.Balanced := by
  intro content member line listed
  obtain ⟨entry, entryListed, rfl⟩ := List.mem_map.mp member
  obtain ⟨rule, ruleListed, rfl⟩ := List.mem_map.mp listed
  have inside := wellFormed.listedEntries_sublist.subset entryListed
  have allowed := wellFormed.rules entry inside rule ruleListed
  simp [RuleLine.Balanced, ruleLine, Pattern.written, allowed.components, allowed.writeCount,
    allowed.moveCount]

/-- The listing of a machine is read back as its written form. -/
theorem Listable.read_write (listable : machine.Listable) (wellFormed : machine.WellFormed)
    (fits : machine.tapeCount < Text.wordLimit) :
    Listing.read (Listing.write machine) =
      .ok (machine.listed.writtenWith machine.listedEntries) := by
  have someBlock : machine.listedEntries.map machine.blockContent ≠ [] := by
    simpa using wellFormed.listedEntries_ne_nil
  obtain ⟨program, parsed, headers, blocks⟩ := Listing.parse_layout someBlock
    (listable.headers_writable wellFormed) (listable.blocks_writable wellFormed)
    (Listing.listingOf_mem machine.headers _)
  have collected : (program.headers.map (·.item)).foldlM Listing.Heading.declare {} =
      .ok machine.heading := by
    rw [← listable.foldlM_headers fits]
    apply Listing.foldlM_declare_congr
    rw [List.map_map]
    exact headers
  have meaning : program.toDocument =
      .ok (machine.listed.writtenWith machine.listedEntries) := by
    have contents : program.contents = machine.listedEntries.map machine.blockContent := blocks
    rw [Listing.Program.toDocument_eq_ok (Listing.plain_of_parse parsed).spelled, contents]
    refine ⟨machine.heading, collected, ?_, wellFormed.balanced, _, rfl, machine.toDocument_heading⟩
    rw [List.map_map]
    exact (wellFormed.listedEntries_sublist.map StateEntry.name).nodup
      wellFormed.proper.distinctStates
  rw [Listing.read_eq_ok, wellFormed.toList_write]
  exact ⟨program, parsed, meaning⟩

end Machine

end TapeMachine
