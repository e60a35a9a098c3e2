import TapeMachine.Proofs.Listing.Shape

/-!
# What is inferred is consistent

A listing may leave its states, its alphabets and its number of tapes to be inferred from its rules.
What is inferred never contradicts itself, so such a listing describes a machine exactly when its
rules and special symbols do not contradict each other (`Program.Coherent`).
-/

namespace TapeMachine

/-- The separator can be read back from between the items. -/
theorem Text.intersperse_injective (separator : Char) :
    Function.Injective (List.intersperse separator) := by
  intro first second same
  apply List.ext_getElem?
  intro index
  calc
    first[index]? = (first.intersperse separator)[2 * index]? :=
      List.getElem?_intersperse_two_mul.symm
    _ = (second.intersperse separator)[2 * index]? := by rw [same]
    _ = second[index]? := List.getElem?_intersperse_two_mul

namespace Document

/-- The components of a pattern that is given by its characters. -/
theorem components_ofList (text : List Char) :
    components (String.ofList text) = (Text.splitOn ',' text).map String.ofList := by
  rw [components_eq, String.toList_ofList]
  rfl

/-- The components of a written pattern are its symbols, unless the separator is one of them. -/
theorem components_written {symbols : List Char} (someSymbol : symbols ≠ [])
    (unsplit : ',' ∉ symbols) :
    components (String.ofList (symbols.intersperse ',')) = symbols.map Char.toString := by
  have words := Text.splitOn_eq_singletons.mpr ⟨someSymbol, unsplit, rfl⟩
  rw [components_ofList, words, List.map_map]
  refine List.map_congr_left fun symbol _ => ?_
  rw [← String.toList_inj, Function.comp_apply, String.toList_ofList, Char.toString_eq_singleton,
    String.toList_singleton]

/-- A separator among the symbols of a written pattern leaves a component that is no symbol. -/
theorem separator_notMem_of_components {symbols : List Char}
    (single : ∀ token ∈ components (String.ofList (symbols.intersperse ',')), token.length = 1) :
    ',' ∉ symbols := by
  obtain ⟨others, spelled⟩ := Text.exists_map_toString single
  have words : Text.splitOn ',' (symbols.intersperse ',') = others.map fun symbol => [symbol] := by
    have texts := congrArg (List.map String.toList) spelled
    rw [components_ofList] at texts
    simpa [Function.comp_def, Char.toString_eq_singleton] using texts
  obtain ⟨-, unsplit, same⟩ := Text.splitOn_eq_singletons.mp words
  rwa [Text.intersperse_injective ',' same]

end Document

namespace Listing

/-- Nothing is left twice where repetitions are removed. -/
theorem nodup_distinct {α : Type} [BEq α] [LawfulBEq α] (items : List α) :
    (distinct items).Nodup := by
  have fresh (seen : List α) :
      (distinctAfter seen items).Nodup ∧ ∀ item ∈ distinctAfter seen items, item ∉ seen := by
    induction items generalizing seen with
    | nil => simp [distinctAfter]
    | cons item items ih =>
        rw [distinctAfter]
        split
        case isTrue => exact ih seen
        case isFalse new =>
            obtain ⟨unique, unseen⟩ := ih (item :: seen)
            have unlisted : item ∉ distinctAfter (item :: seen) items :=
              fun member => unseen item member List.mem_cons_self
            refine ⟨List.nodup_cons.mpr ⟨unlisted, unique⟩, ?_⟩
            rw [List.forall_mem_cons]
            exact ⟨by simpa using new,
              fun other member seen => unseen other member (List.mem_cons_of_mem _ seen)⟩
  exact (fresh []).1

/-- Without input symbols, the alphabet holds the blank and what rules read and write. -/
theorem mem_inferAlphabet {blocks : List (String × List RuleLine)}
    {blank wildcard symbol : Char} :
    symbol ∈ inferAlphabet [] blocks blank wildcard ↔
      symbol = blank ∨ symbol ≠ wildcard ∧
        ∃ rule ∈ rulesOf blocks, symbol ∈ rule.reads ∨ symbol ∈ rule.writes := by
  rw [inferAlphabet, mem_distinct]
  simp only [List.nil_append, List.mem_append, List.mem_filter, List.mem_flatMap,
    List.mem_singleton, bne_iff_ne]
  grind

namespace Program

/-- No header settles the states, the number of tapes or an alphabet. -/
def InfersTables (program : Program) : Prop :=
  ∀ header ∈ program.headers, header.item.keyword ∉ ["states", "tapes", "input", "alphabet"]

/-- The blank of a program. -/
def blank (program : Program) : Char :=
  program.heading.blank.getD '_'

/-- The wildcard of a program. -/
def wildcard (program : Program) : Char :=
  program.heading.wildcard.getD '*'

/-- The rules of a program, in order. -/
def rules (program : Program) : List RuleLine :=
  rulesOf program.contents

/-- The special symbols and the rules of a program do not contradict each other. -/
structure Coherent (program : Program) : Prop where
  blank_ne_wildcard : program.blank ≠ program.wildcard
  blank_ne_separator : program.blank ≠ ','
  reads : ∀ rule ∈ program.rules, ',' ∉ rule.reads
  writes : ∀ rule ∈ program.rules, ',' ∈ rule.writes → program.wildcard = ','
  arity : ∀ rule ∈ program.rules, ∀ other ∈ program.rules, rule.reads.length = other.reads.length
  distinctReads : ∀ block ∈ program.blocks, (block.item.rules.map (·.item.reads)).Nodup

variable {program : Program}

/-- Where no header settles the states, the tapes or an alphabet, the heading does not either. -/
theorem InfersTables.heading_eq (inferred : program.InfersTables) :
    program.heading.states = none ∧ program.heading.tapes = none ∧
      program.heading.input = none ∧ program.heading.alphabet = none := by
  simp only [heading, Heading.ofHeaders, List.findSome?_eq_none_iff, List.forall_mem_map]
  refine ⟨?_, ?_, ?_, ?_⟩ <;>
    · intro header listed
      have other := inferred header listed
      cases said : header.item <;> simp_all [Header.keyword]

/-- The symbols of the inferred alphabet. -/
def alphabet (program : Program) : List Char :=
  inferAlphabet [] program.contents program.blank program.wildcard

/-- The symbols of the inferred alphabet are the blank and those that rules mention. -/
theorem mem_alphabet {symbol : Char} :
    symbol ∈ program.alphabet ↔
      symbol = program.blank ∨ symbol ≠ program.wildcard ∧
        ∃ rule ∈ program.rules, symbol ∈ rule.reads ∨ symbol ∈ rule.writes :=
  mem_inferAlphabet

/-- What is inferred where no header says otherwise. -/
structure Infers (program : Program) (document : Document) : Prop where
  states : document.states =
    inferStates document.initialState program.contents document.acceptingStates
  inputAlphabet : document.inputAlphabet =
    (program.alphabet.filter (· != program.blank)).map Char.toString
  tapeAlphabet : document.tapeAlphabet = program.alphabet.map Char.toString
  tapeCount : document.tapeCount = inferTapes program.contents
  blank : document.blank = program.blank.toString
  wildcard : document.wildcard = program.wildcard.toString
  unchanged : document.unchanged = program.wildcard.toString
  transitions : document.transitions = program.contents.map contentEntry

/-- The document of a program without these headers is inferred from its rules. -/
theorem InfersTables.infers (inferred : program.InfersTables) (plain : program.Plain)
    {document : Document} (meaning : program.toDocument = .ok document) :
    program.Infers document := by
  obtain ⟨states, tapes, input, alphabet⟩ := inferred.heading_eq
  obtain ⟨-, same, -⟩ := plain.eq_toDocument meaning
  generalize document.initialState = start at same
  subst same
  constructor <;>
    simp [Heading.toDocument, states, tapes, input, alphabet, blank, wildcard, Program.alphabet]

/-- A document declares, each once, all states and symbols that a program mentions. -/
structure DeclaredIn (program : Program) (document : Document) : Prop where
  distinctStates : document.states.Nodup
  initial : document.initialState ∈ document.states
  accepting : ∀ name ∈ document.acceptingStates, name ∈ document.states
  sources : ∀ table ∈ document.transitions, table.1 ∈ document.states
  next : ∀ table ∈ document.transitions, ∀ rule ∈ table.2, rule.2.nextState ∈ document.states
  distinctTape : document.tapeAlphabet.Nodup
  distinctInput : document.inputAlphabet.Nodup
  input : ∀ token ∈ document.inputAlphabet, token ∈ document.tapeAlphabet
  blank : document.blank ∈ document.tapeAlphabet
  used : ∀ rule ∈ program.rules, ∀ symbol ∈ rule.reads ++ rule.writes,
    symbol.toString = document.wildcard ∨ symbol.toString ∈ document.tapeAlphabet

namespace Infers

variable {document : Document}

/-- The tape symbols of the document are the symbols of the inferred alphabet. -/
theorem toString_mem (infers : program.Infers document) {symbol : Char} :
    symbol.toString ∈ document.tapeAlphabet ↔ symbol ∈ program.alphabet := by
  rw [infers.tapeAlphabet, List.mem_map_of_injective Text.toString_injective]

/-- The rules of a program are those of its blocks. -/
theorem mem_rules {line : RuleLine} :
    line ∈ program.rules ↔
      ∃ block ∈ program.blocks, ∃ rule ∈ block.item.rules, rule.item.line = line :=
  mem_rulesOf_contents

/-- The states of the document are those that the program mentions somewhere. -/
theorem mem_states (infers : program.Infers document) {name : String} :
    name ∈ document.states ↔ name = document.initialState ∨
      (∃ block ∈ program.blocks, block.item.state = name) ∨
      (∃ rule ∈ program.rules, rule.next = name) ∨ name ∈ document.acceptingStates := by
  rw [infers.states, mem_inferStates]
  simp [rules, contents, Block.content]

/-- The tables of the document are the blocks of the program. -/
theorem forall_tables (infers : program.Infers document)
    {holds : String × Table ActionRecord → Prop} :
    (∀ table ∈ document.transitions, holds table) ↔
      ∀ block ∈ program.blocks, holds (contentEntry block.item.content) := by
  rw [infers.transitions, contents, List.map_map, List.forall_mem_map]
  rfl

/-- Nothing that is inferred is missing or listed twice. -/
theorem declaredIn (infers : program.Infers document) : program.DeclaredIn document where
  distinctStates := infers.states ▸ nodup_distinct _
  initial := infers.mem_states.mpr (.inl rfl)
  accepting := fun name listed => infers.mem_states.mpr (.inr (.inr (.inr listed)))
  sources := infers.forall_tables.mpr fun block listed =>
    infers.mem_states.mpr (.inr (.inl ⟨block, listed, rfl⟩))
  next := infers.forall_tables.mpr fun block listed rule member => by
    obtain ⟨_, said, rfl⟩ := List.mem_map.mp member
    obtain ⟨line, inside, rfl⟩ := List.mem_map.mp said
    have used := mem_rules.mpr ⟨block, listed, line, inside, rfl⟩
    exact infers.mem_states.mpr (.inr (.inr (.inl ⟨_, used, rfl⟩)))
  distinctTape := infers.tapeAlphabet ▸ (nodup_distinct _).map Text.toString_injective
  distinctInput := infers.inputAlphabet ▸
    ((nodup_distinct _).filter _).map Text.toString_injective
  input := by
    rw [infers.inputAlphabet, List.forall_mem_map]
    exact fun symbol listed => infers.toString_mem.mpr (List.mem_of_mem_filter listed)
  blank := by
    rw [infers.blank]
    exact infers.toString_mem.mpr (mem_alphabet.mpr (.inl rfl))
  used := by
    intro rule listed symbol member
    rw [infers.wildcard, Text.toString_injective.eq_iff, infers.toString_mem, mem_alphabet]
    have mentioned : symbol ∈ rule.reads ∨ symbol ∈ rule.writes := List.mem_append.mp member
    by_cases wild : symbol = program.wildcard
    · exact .inl wild
    · exact .inr (.inr ⟨wild, rule, listed, mentioned⟩)

/-- There is one tape for each read of the first rule. -/
theorem tapeCount_eq (infers : program.Infers document) :
    document.tapeCount = (program.rules.head?.map (·.reads.length)).getD 1 := by
  rw [infers.tapeCount, inferTapes, rules]
  cases rulesOf program.contents <;> rfl

/-- Where all rules have equally many reads, each rule tells the number of tapes. -/
theorem tapeCount_eq_of_arity (infers : program.Infers document) {rule : RuleLine}
    (listed : rule ∈ program.rules)
    (arity : ∀ other ∈ program.rules, rule.reads.length = other.reads.length) :
    document.tapeCount = rule.reads.length := by
  rw [infers.tapeCount_eq]
  cases all : program.rules with
  | nil => simp [all] at listed
  | cons first others => exact (arity first (all ▸ List.mem_cons_self)).symm

/-- The inferred tape symbols keep clear of the reserved ones if the special symbols do and the
separator is not used, unless as the wildcard. -/
theorem separator_notMem_iff (infers : program.Infers document) :
    "," ∉ document.tapeAlphabet ↔ program.blank ≠ ',' ∧
      ∀ rule ∈ program.rules, ',' ∈ rule.reads ∨ ',' ∈ rule.writes → program.wildcard = ',' := by
  change (',').toString ∉ _ ↔ _
  rw [infers.toString_mem, mem_alphabet]
  grind

/-- The wildcard is left out of the inferred alphabet unless it is also the blank. -/
theorem wildcard_notMem_iff (infers : program.Infers document) :
    document.wildcard ∉ document.tapeAlphabet ↔ program.blank ≠ program.wildcard := by
  rw [infers.wildcard, infers.toString_mem, mem_alphabet]
  grind

/-- The heading that is inferred for a program is proper if its special symbols are. -/
theorem properHeading_iff (infers : program.Infers document) (plain : PlainDocument document)
    (someTape : 1 ≤ document.tapeCount) :
    document.ProperHeading ↔ program.blank ≠ program.wildcard ∧ program.blank ≠ ',' ∧
      ∀ rule ∈ program.rules, ',' ∈ rule.reads ∨ ',' ∈ rule.writes → program.wildcard = ',' := by
  have declared := infers.declaredIn
  rw [← infers.separator_notMem_iff, ← infers.wildcard_notMem_iff]
  refine ⟨fun heading => ⟨heading.wildcard, heading.separator⟩, ?_⟩
  rintro ⟨wildcard, separator⟩
  exact {
    tapes := someTape
    states := List.ne_nil_of_mem declared.initial
    named := fun listed => (plain.states "" listed).1 rfl
    distinctStates := declared.distinctStates
    blankToken := plain.blankToken
    wildcardToken := plain.wildcardToken
    unchangedToken := plain.unchanged ▸ plain.wildcardToken
    tapeTokens := plain.tapeTokens
    inputTokens := plain.inputTokens
    distinctTape := declared.distinctTape
    distinctInput := declared.distinctInput
    input := declared.input
    blank := declared.blank
    wildcard := wildcard
    unchanged := plain.unchanged ▸ wildcard
    separator := separator }

/-- A rule is admitted if it does not read the separator and has as many reads as there are
tapes. -/
theorem admitsRule_iff (infers : program.Infers document) {rule : RuleLine}
    (listed : rule ∈ program.rules) (someMove : rule.moves ≠ []) (balanced : rule.Balanced) :
    document.AdmitsRule rule.entry.1 rule.entry.2 ↔
      ',' ∉ rule.reads ∧ rule.reads.length = document.tapeCount := by
  have declared := infers.declaredIn
  have someRead : rule.reads ≠ [] := by
    have moves := List.length_pos_of_ne_nil someMove
    exact List.ne_nil_of_length_pos (balanced.2 ▸ moves)
  have tokens (symbols : List Char) (mentioned : ∀ c ∈ symbols, c ∈ rule.reads ++ rule.writes) :
      ∀ token ∈ symbols.map Char.toString, document.AdmitsToken document.wildcard token := by
    intro token member
    obtain ⟨symbol, inside, rfl⟩ := List.mem_map.mp member
    exact ⟨Text.length_eq_one.mpr ⟨symbol, rfl⟩,
      declared.used rule listed symbol (mentioned symbol inside)⟩
  constructor
  · intro admitted
    have writes : rule.writes.length = document.tapeCount := by
      simpa [RuleLine.entry] using admitted.writeCount
    exact ⟨Document.separator_notMem_of_components fun token member =>
      (admitted.components token member).1, balanced.1.trans writes⟩
  · rintro ⟨unsplit, count⟩
    have components := Document.components_written someRead unsplit
    have unchanged : document.unchanged = document.wildcard :=
      infers.unchanged.trans infers.wildcard.symm
    refine {
      componentCount := ?_
      components := ?_
      writeCount := by simpa [RuleLine.entry, ← balanced.1] using count
      writes := ?_
      moveCount := by simpa [RuleLine.entry, ← balanced.2] using count
      moves := ?_
      next := ?_ }
    · change (Document.components (String.ofList _)).length = _
      rw [components, List.length_map, count]
    · change ∀ token ∈ Document.components (String.ofList _), _
      rw [components]
      exact tokens rule.reads fun c inside => List.mem_append_left _ inside
    · rw [unchanged]
      exact tokens rule.writes fun c inside => List.mem_append_right _ inside
    · intro token member
      obtain ⟨direction, -, rfl⟩ := List.mem_map.mp member
      cases direction <;> simp [Direction.token]
    · exact infers.mem_states.mpr (.inr (.inr (.inl ⟨rule, listed, rfl⟩)))

/-- A block has no pattern twice exactly when it has no reads twice. -/
theorem nodup_patterns_iff (block : Block) :
    (Table.keys (contentEntry block.content).2).Nodup ↔
      (block.rules.map (·.item.reads)).Nodup := by
  have keys : Table.keys (contentEntry block.content).2 =
      (block.rules.map (·.item.reads)).map fun reads => String.ofList (reads.intersperse ',') := by
    simp [Table.keys, contentEntry, Block.content, RuleLine.entry, WrittenRule.line,
      Function.comp_def]
  have injective : Function.Injective fun reads : List Char =>
      String.ofList (reads.intersperse ',') := by
    intro first second same
    exact Text.intersperse_injective ',' (String.ofList_injective same)
  rw [keys, List.nodup_map_iff injective]

end Infers

/-- The rules of a program that the grammar gives and that has a meaning move a head and are
balanced. -/
theorem Plain.rule (plain : program.Plain) {document : Document}
    (meaning : program.toDocument = .ok document) :
    ∀ rule ∈ program.rules, rule.moves ≠ [] ∧ rule.Balanced := by
  intro rule listed
  obtain ⟨block, inside, line, used, rfl⟩ := Infers.mem_rules.mp listed
  obtain ⟨plainRule, balanced⟩ := plain.balanced_rules meaning block inside line used
  refine ⟨List.ne_nil_of_length_pos ?_, balanced⟩
  rw [plainRule.length_moves]
  exact List.length_pos_of_ne_nil plainRule.someMove

/-- At least one tape is inferred, because every rule moves at least one head. -/
theorem Plain.one_le_tapeCount (plain : program.Plain) {document : Document}
    (meaning : program.toDocument = .ok document) (infers : program.Infers document) :
    1 ≤ document.tapeCount := by
  rw [infers.tapeCount_eq]
  cases all : program.rules with
  | nil => exact Nat.le_refl 1
  | cons first others =>
      obtain ⟨someMove, balanced⟩ := plain.rule meaning first (all ▸ List.mem_cons_self)
      change 1 ≤ first.reads.length
      rw [balanced.2]
      exact List.length_pos_of_ne_nil someMove

/-- The document inferred for a program is admissible exactly when the program is coherent. -/
theorem Plain.admissible_iff (plain : program.Plain) {document : Document}
    (meaning : program.toDocument = .ok document) (infers : program.Infers document) :
    document.Admissible ↔ program.Coherent := by
  have plainDocument := plain.plainDocument meaning
  have declared := infers.declaredIn
  have rules := plain.rule meaning
  have someTape := plain.one_le_tapeCount meaning infers
  have heading := infers.properHeading_iff plainDocument someTape
  have admits : (∀ table ∈ document.transitions, ∀ rule ∈ table.2,
      document.AdmitsRule rule.1 rule.2) ↔
      ∀ rule ∈ program.rules, ',' ∉ rule.reads ∧ rule.reads.length = document.tapeCount := by
    rw [infers.forall_tables]
    simp only [contentEntry, Block.content, List.forall_mem_map]
    constructor
    · intro admitted rule listed
      obtain ⟨block, inside, line, used, rfl⟩ := Infers.mem_rules.mp listed
      obtain ⟨someMove, balanced⟩ := rules _ listed
      exact (infers.admitsRule_iff listed someMove balanced).mp (admitted block inside line used)
    · intro holds block inside line used
      have listed : line.item.line ∈ program.rules :=
        Infers.mem_rules.mpr ⟨block, inside, line, used, rfl⟩
      obtain ⟨someMove, balanced⟩ := rules _ listed
      exact (infers.admitsRule_iff listed someMove balanced).mpr (holds _ listed)
  have patterns : (∀ table ∈ document.transitions, (Table.keys table.2).Nodup) ↔
      ∀ block ∈ program.blocks, (block.item.rules.map (·.item.reads)).Nodup := by
    rw [infers.forall_tables]
    exact forall₂_congr fun block _ => Infers.nodup_patterns_iff block.item
  constructor
  · intro admissible
    obtain ⟨apart, plainBlank, separator⟩ := heading.mp admissible.heading
    have holds := admits.mp admissible.rules
    exact {
      blank_ne_wildcard := apart
      blank_ne_separator := plainBlank
      reads := fun rule listed => (holds rule listed).1
      writes := fun rule listed written => separator rule listed (.inr written)
      arity := fun rule listed other otherListed =>
        (holds rule listed).2.trans (holds other otherListed).2.symm
      distinctReads := patterns.mp admissible.distinctPatterns }
  · intro coherent
    have separator : ∀ rule ∈ program.rules, ',' ∈ rule.reads ∨ ',' ∈ rule.writes →
        program.wildcard = ',' := fun rule listed used =>
      coherent.writes rule listed (used.resolve_left (coherent.reads rule listed))
    refine {
      heading := heading.mpr ⟨coherent.blank_ne_wildcard, coherent.blank_ne_separator, separator⟩
      initial := declared.initial
      accepting := declared.accepting
      sources := declared.sources
      distinctSources := plainDocument.distinctSources
      rules := admits.mpr fun rule listed => ⟨coherent.reads rule listed, ?_⟩
      distinctPatterns := patterns.mpr coherent.distinctReads }
    exact (infers.tapeCount_eq_of_arity listed (coherent.arity rule listed)).symm

end Program

/-- A listing whose headers settle neither the states nor the tapes nor an alphabet describes a
machine exactly when its blank is neither the wildcard nor the separator, no rule reads the
separator or writes it other than as the wildcard, all rules have equally many reads, and no block
has the same reads twice. Whether or not it does, every state and symbol that it mentions is
declared, once. -/
theorem inferred_machine_exists_iff_coherent {source : String} {program : Program}
    {document : Document} (parsed : parse source.toList = .ok program)
    (accepted : read source = .ok document) (inferred : program.InfersTables) :
    ((∃ machine, Format.listing.read source = .ok machine) ↔ program.Coherent) ∧
      program.DeclaredIn document := by
  have meaning : program.toDocument = .ok document := by
    obtain ⟨_, same, meaning⟩ := read_eq_ok.mp accepted
    rw [parsed] at same
    exact Except.ok.inj same ▸ meaning
  have plain := plain_of_parse parsed
  have infers := inferred.infers plain meaning
  have compiles : (∃ machine, Format.listing.read source = .ok machine) ↔
      ∃ machine, Machine.ofDocument document = .ok machine := by
    simp [Format.read_listing_eq_ok, accepted]
  rw [compiles, Machine.exists_ofDocument_iff]
  exact ⟨plain.admissible_iff meaning infers, infers.declaredIn⟩

/-- A listing that keeps a cell by writing a comma, which is its wildcard. -/
def keepingListing : String :=
  "wildcard:','\nrules:\ns:\n[a,_]->[',',b],[R,-],t\n"

/-- A rule that keeps the cell of the first tape. -/
def WrittenRule.keeping : WrittenRule where
  reads := ['a', '_']
  writes := [',', 'b']
  moves := [⟨39, 'R'⟩, ⟨41, '-'⟩]
  next := "t"

/-- What the listing that keeps a cell says. -/
def Program.keeping : Program where
  headers := [⟨0, .wildcard ','⟩]
  blocks := [⟨20, { state := "s", rules := [⟨23, .keeping⟩] }⟩]

/-- The document of the listing that keeps a cell. -/
def keepingDocument : Document where
  name := ""
  description := ""
  states := ["s", "t"]
  inputAlphabet := ["a", "b"]
  tapeAlphabet := ["a", "_", "b"]
  tapeCount := 2
  initialState := "s"
  acceptingStates := []
  blank := "_"
  wildcard := ","
  unchanged := ","
  transitions := [("s", [("a,_", { write := [",", "b"], move := ["R", "S"], nextState := "t" })])]

/-- A listing with a comma as its wildcard describes a machine, though commas separate the
components of its patterns. -/
theorem inferred_machine_exists_for_keepingListing :
    parse keepingListing.toList = .ok .keeping ∧ read keepingListing = .ok keepingDocument ∧
      Program.keeping.InfersTables ∧
      (∃ machine, Format.listing.read keepingListing = .ok machine) ∧
      Program.keeping.DeclaredIn keepingDocument := by
  have spelled : keepingListing = String.ofList [
      'w', 'i', 'l', 'd', 'c', 'a', 'r', 'd', ':', '\'', ',', '\'', '\n', 'r', 'u', 'l', 'e',
      's', ':', '\n', 's', ':', '\n', '[', 'a', ',', '_', ']', '-', '>', '[', '\'', ',', '\'',
      ',', 'b', ']', ',', '[', 'R', ',', '-', ']', ',', 't', '\n'] := rfl
  have parsed : parse keepingListing.toList = .ok .keeping := by
    rw [spelled, String.toList_ofList]
    decide +kernel
  have accepted : read keepingListing = .ok keepingDocument :=
    read_eq_ok.mpr ⟨.keeping, parsed, by rfl⟩
  have inferred : Program.keeping.InfersTables := by
    simp [Program.InfersTables, Program.keeping, Header.keyword]
  have coherent : Program.keeping.Coherent :=
    ⟨by decide, by decide, by decide, by decide, by decide, by decide⟩
  obtain ⟨compiles, declared⟩ := inferred_machine_exists_iff_coherent parsed accepted inferred
  exact ⟨parsed, accepted, inferred, compiles.mpr coherent, declared⟩

end Listing

end TapeMachine
