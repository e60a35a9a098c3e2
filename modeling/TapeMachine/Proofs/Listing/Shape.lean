import TapeMachine.Load
import TapeMachine.Proofs.Document.Admissible
import TapeMachine.Proofs.Listing.Outline

/-!
# The documents that listings give

Reading a listing is refused with a position in it, or gives a document of one shape, whatever the
text. `Program.heading` tells what the headers of a program settle, free of the order in which they
are collected; the shape of the document follows part by part from what the grammar gives.
-/

namespace TapeMachine

/-- A listing is loaded by reading its document and compiling it. -/
theorem Format.read_listing_eq_ok {source : String} {machine : Machine} :
    Format.listing.read source = .ok machine ↔
      ∃ document, Listing.read source = .ok document ∧
        Machine.ofDocument document = .ok machine := by
  simp only [Format.read, Format.readDocument, Checks.bind_eq_ok, Checks.mapError_eq_ok]

namespace Listing

/-! ## What headers settle -/

/-- Trimming the names of headers trims the declared name and nothing else. -/
theorem Heading.ofHeaders_trimmed (headers : List Header) :
    Heading.ofHeaders (headers.map Header.trimmed) =
      { Heading.ofHeaders headers with
        name := (Heading.ofHeaders headers).name.map Text.trim } := by
  simp only [Heading.ofHeaders, List.findSome?_map, List.map_findSome?, Heading.mk.injEq]
  refine ⟨?_, ?_, ?_, ?_, ?_, ?_, ?_, ?_, ?_⟩ <;>
    · congr 1
      funext header
      cases header <;> rfl

namespace Program

/-- What the headers of a program declare, each from the first header of its kind. -/
def heading (program : Program) : Heading :=
  let declared := Heading.ofHeaders (program.headers.map (·.item))
  { declared with name := declared.name.map Text.trim }

variable {program : Program} {document : Document}

/-- What is collected from the headers of a program is what they declare. -/
theorem eq_heading_of_collected {collected : Heading}
    (accepted : (program.headers.map (·.item)).foldlM Heading.declare {} = .ok collected) :
    collected = program.heading := by
  have trimmed : ∀ name, .name name ∈ (program.headers.map (·.item)).map Header.trimmed →
      Text.trim name = name := by
    intro name member
    obtain ⟨header, -, same⟩ := List.mem_map.mp member
    cases header with
    | name text =>
        obtain rfl := Header.name.inj same
        exact Text.trim_trim text
    | _ => cases same
  have alike : ((program.headers.map (·.item)).map Header.trimmed).map Header.trimmed =
      (program.headers.map (·.item)).map Header.trimmed := by
    rw [List.map_map]
    refine List.map_congr_left fun header _ => ?_
    cases header with
    | name text => exact congrArg Header.name (Text.trim_trim text)
    | _ => rfl
  rw [← foldlM_declare_congr alike, foldlM_declare_eq_ok trimmed] at accepted
  rw [← accepted.2.2, Heading.ofHeaders_trimmed]
  rfl

/-- The initial state that a program names: the declared one, or else the state of its first
block. -/
def initialState? (program : Program) : Option String :=
  program.heading.start.or (program.blocks.head?.map (·.item.state))

/-- A program with a meaning starts where it says, and means what its headers and blocks say. -/
theorem Plain.eq_toDocument (plain : program.Plain) (meaning : program.toDocument = .ok document) :
    program.initialState? = some document.initialState ∧
      document = program.heading.toDocument document.initialState program.contents ∧
      (program.contents.map (·.1)).Nodup ∧
      ∀ content ∈ program.contents, ∀ rule ∈ content.2, rule.Balanced := by
  obtain ⟨heading, collected, distinct, balanced, start, named, rfl⟩ :=
    (toDocument_eq_ok plain.spelled).mp meaning
  rw [eq_heading_of_collected collected] at named ⊢
  refine ⟨?_, rfl, distinct, balanced⟩
  rw [contents, List.head?_map, Option.map_map] at named
  exact named

/-- Every rule of a program that the grammar gives and that has a meaning is plain, and what it says
is balanced. -/
theorem Plain.balanced_rules (plain : program.Plain) (meaning : program.toDocument = .ok document) :
    ∀ block ∈ program.blocks, ∀ rule ∈ block.item.rules,
      rule.item.Plain ∧ rule.item.line.Balanced := by
  intro block inside rule used
  have content : block.item.content ∈ program.contents := List.mem_map_of_mem inside
  have line : rule.item.line ∈ block.item.content.2 := List.mem_map_of_mem used
  exact ⟨(plain.blocks block inside).rules rule used,
    (plain.eq_toDocument meaning).2.2.2 _ content _ line⟩

/-- A declared value was declared by a header that the grammar gives. -/
theorem Plain.exists_header (plain : program.Plain) {α : Type} {select : Header → Option α}
    {value : α} (declared : (program.headers.map (·.item)).findSome? select = some value) :
    ∃ header : Header, header.Plain ∧ select header = some value := by
  obtain ⟨header, listed, selected⟩ := List.exists_of_findSome?_eq_some declared
  obtain ⟨line, member, rfl⟩ := List.mem_map.mp listed
  exact ⟨line.item, plain.headers line member, selected⟩

/-- The name that a plain program declares is trimmed and stays on one line. -/
theorem Plain.name_eq (plain : program.Plain) :
    Text.trim (program.heading.name.getD []) = program.heading.name.getD [] ∧
      ∀ c ∈ program.heading.name.getD [], isTextChar c := by
  cases declared : (Heading.ofHeaders (program.headers.map (·.item))).name with
  | none => simp [heading, declared, Text.trim, Text.trimStart, Text.trimEnd]
  | some text =>
      obtain ⟨header, plainHeader, selected⟩ := plain.exists_header declared
      have name : program.heading.name = some (Text.trim text) := by simp [heading, declared]
      rw [name]
      cases header with
      | name chars =>
          obtain rfl := Option.some.inj selected
          exact ⟨Text.trim_trim _, fun c member => plainHeader c (Text.mem_of_mem_trim member)⟩
      | _ => cases selected

/-- A plain program declares plain states. -/
theorem Plain.states (plain : program.Plain) {names : List String}
    (declared : program.heading.states = some names) : ∀ name ∈ names, PlainName name := by
  obtain ⟨header, plainHeader, selected⟩ := plain.exists_header declared
  cases header with
  | states names => cases selected; exact plainHeader
  | _ => cases selected

/-- A plain program accepts in plain states. -/
theorem Plain.accept (plain : program.Plain) :
    ∀ name ∈ program.heading.accept.getD [], PlainName name := by
  cases declared : program.heading.accept with
  | none => simp
  | some names =>
      obtain ⟨header, plainHeader, selected⟩ := plain.exists_header declared
      cases header with
      | accept names => cases selected; exact plainHeader
      | _ => cases selected

/-- A program that the grammar gives names an initial state. -/
theorem Plain.exists_initialState (plain : program.Plain) :
    ∃ name, program.initialState? = some name ∧ PlainName name := by
  cases declared : program.heading.start with
  | none =>
      obtain ⟨block, others, blocks⟩ := List.exists_cons_of_ne_nil plain.someBlock
      refine ⟨block.item.state, by simp [initialState?, declared, blocks], ?_⟩
      exact (plain.blocks block (blocks ▸ List.mem_cons_self)).state
  | some name =>
      refine ⟨name, by simp [initialState?, declared], ?_⟩
      obtain ⟨header, plainHeader, selected⟩ := plain.exists_header declared
      cases header with
      | start name => cases selected; exact plainHeader
      | _ => cases selected

/-- The initial state of a document is the one that its program names. -/
theorem Plain.initialState (plain : program.Plain)
    (meaning : program.toDocument = .ok document) :
    program.initialState? = some document.initialState ∧ PlainName document.initialState := by
  have same := (plain.eq_toDocument meaning).1
  obtain ⟨name, named, plainName⟩ := plain.exists_initialState
  rw [same] at named
  obtain rfl := Option.some.inj named
  exact ⟨same, plainName⟩

end Program

/-! ## What is inferred -/

/-- Nothing is lost where repetitions are removed. -/
theorem mem_distinct {α : Type} [BEq α] [LawfulBEq α] {items : List α} {item : α} :
    item ∈ distinct items ↔ item ∈ items := by
  rw [distinct_eq_eraseDups, List.mem_eraseDups]

/-- The inferred states are those that are mentioned somewhere. -/
theorem mem_inferStates {start name : String} {blocks : List (String × List RuleLine)}
    {accept : List String} :
    name ∈ inferStates start blocks accept ↔
      name = start ∨ (∃ block ∈ blocks, block.1 = name) ∨
        (∃ rule ∈ rulesOf blocks, rule.next = name) ∨ name ∈ accept := by
  rw [inferStates, mem_distinct]
  simp only [List.cons_append, List.mem_cons, List.mem_append, List.mem_map, or_assoc]

/-- The rules of a program are what the rules of its blocks say. -/
theorem Program.mem_rulesOf_contents {program : Program} {line : RuleLine} :
    line ∈ rulesOf program.contents ↔
      ∃ block ∈ program.blocks, ∃ rule ∈ block.item.rules, rule.item.line = line := by
  simp [rulesOf, Program.contents, Block.content]

/-! ## Rules -/

/-- A rule as listings give it: a written symbol, a movement in its canonical token and a component
of the pattern for each tape, of which there is at least one. -/
structure PlainRule (pattern : String) (record : ActionRecord) : Prop where
  someTape : 1 ≤ record.write.length
  moveCount : record.move.length = record.write.length
  pattern : ∃ reads : List Char, reads.length = record.write.length ∧
    pattern = String.intercalate "," (reads.map Char.toString)
  writes : ∀ token ∈ record.write, token.length = 1
  moves : ∀ token ∈ record.move, token ∈ ["L", "R", "S"]
  next : PlainName record.nextState

/-- What a plain and balanced rule says is a plain table entry. -/
theorem WrittenRule.Plain.entry {rule : WrittenRule} (plain : rule.Plain)
    (balanced : rule.line.Balanced) : PlainRule rule.line.entry.1 rule.line.entry.2 where
  someTape := by
    have moves := List.length_pos_of_ne_nil plain.someMove
    rw [RuleLine.entry, List.length_map, ← balanced.1, balanced.2, plain.length_moves]
    exact moves
  moveCount := by simp [RuleLine.entry, ← balanced.1, balanced.2]
  pattern := ⟨rule.reads, by rw [RuleLine.entry, List.length_map, ← balanced.1]; rfl,
    ofList_intersperse rule.reads⟩
  writes := by
    intro token member
    obtain ⟨symbol, -, rfl⟩ := List.mem_map.mp member
    exact Text.length_eq_one.mpr ⟨symbol, rfl⟩
  moves := by
    intro token member
    obtain ⟨direction, -, rfl⟩ := List.mem_map.mp member
    cases direction <;> simp [Direction.token]
  next := plain.next

/-! ## Documents -/

/-- The documents that listings give: every token is one character, every name is plain, and no
state has two tables. -/
structure PlainDocument (document : Document) : Prop where
  description : document.description = ""
  unchanged : document.unchanged = document.wildcard
  blankToken : document.blank.length = 1
  wildcardToken : document.wildcard.length = 1
  inputTokens : ∀ token ∈ document.inputAlphabet, token.length = 1
  tapeTokens : ∀ token ∈ document.tapeAlphabet, token.length = 1
  states : ∀ name ∈ document.states, PlainName name
  initial : PlainName document.initialState
  accepting : ∀ name ∈ document.acceptingStates, PlainName name
  sources : ∀ name ∈ Table.keys document.transitions, PlainName name
  someSource : document.transitions ≠ []
  distinctSources : (Table.keys document.transitions).Nodup
  rules : ∀ table ∈ document.transitions, ∀ rule ∈ table.2, PlainRule rule.1 rule.2
  trimmed : Text.trim document.name.toList = document.name.toList
  name : ∀ c ∈ document.name.toList, c ≠ '\n' ∧ c ≠ '\r' ∧ c ≠ '#'

/-- The states of a document are the declared ones, or else those that its program mentions. -/
theorem Program.Plain.states_toDocument {program : Program} {document : Document}
    (plain : program.Plain) (meaning : program.toDocument = .ok document) :
    ∀ name ∈ document.states, PlainName name := by
  have start := (plain.initialState meaning).2
  obtain ⟨-, same, -⟩ := plain.eq_toDocument meaning
  intro name member
  rw [same] at member
  change name ∈ program.heading.states.getD _ at member
  cases declared : program.heading.states with
  | some names =>
      rw [declared] at member
      exact plain.states declared name member
  | none =>
      rw [declared, Option.getD_none, mem_inferStates] at member
      rcases member with rfl | ⟨_, listed, rfl⟩ | ⟨_, listed, rfl⟩ | accepting
      · exact start
      · obtain ⟨block, inside, rfl⟩ := List.mem_map.mp listed
        exact (plain.blocks block inside).state
      · obtain ⟨block, inside, rule, used, rfl⟩ := Program.mem_rulesOf_contents.mp listed
        exact ((plain.blocks block inside).rules rule used).next
      · exact plain.accept name accepting

/-- The meaning of a program that the grammar gives. -/
theorem Program.Plain.plainDocument {program : Program} {document : Document}
    (plain : program.Plain) (meaning : program.toDocument = .ok document) :
    PlainDocument document := by
  have states := plain.states_toDocument meaning
  have initial := (plain.initialState meaning).2
  have rules := plain.balanced_rules meaning
  obtain ⟨-, same, distinct, -⟩ := plain.eq_toDocument meaning
  generalize document.initialState = start at same initial
  subst same
  have single (symbol : Char) : symbol.toString.length = 1 := Text.length_eq_one.mpr ⟨symbol, rfl⟩
  have singles (symbols : List Char) : ∀ token ∈ symbols.map Char.toString, token.length = 1 := by
    intro token member
    obtain ⟨symbol, -, rfl⟩ := List.mem_map.mp member
    exact single symbol
  have keys : Table.keys (program.heading.toDocument start program.contents).transitions =
      program.blocks.map (·.item.state) := by
    simp [Table.keys, Heading.toDocument, contentEntry, Program.contents, Block.content,
      Function.comp_def]
  refine {
    description := rfl
    unchanged := rfl
    blankToken := single _
    wildcardToken := single _
    inputTokens := singles _
    tapeTokens := singles _
    states := states
    initial := initial
    accepting := plain.accept
    sources := ?_
    someSource := ?_
    distinctSources := ?_
    rules := ?_
    trimmed := ?_
    name := ?_ }
  · intro name member
    rw [keys] at member
    obtain ⟨block, listed, rfl⟩ := List.mem_map.mp member
    exact (plain.blocks block listed).state
  · simpa [Heading.toDocument, Program.contents] using plain.someBlock
  · rw [keys]
    simpa [Program.contents, Block.content, Function.comp_def] using distinct
  · intro table written rule listed
    obtain ⟨_, member, rfl⟩ := List.mem_map.mp written
    obtain ⟨block, inside, rfl⟩ := List.mem_map.mp member
    obtain ⟨_, said, rfl⟩ := List.mem_map.mp listed
    obtain ⟨line, used, rfl⟩ := List.mem_map.mp said
    obtain ⟨plainRule, balanced⟩ := rules block inside line used
    exact plainRule.entry balanced
  · change Text.trim (String.ofList _).toList = (String.ofList _).toList
    rw [String.toList_ofList]
    exact plain.name_eq.1
  · change ∀ c ∈ (String.ofList _).toList, c ≠ '\n' ∧ c ≠ '\r' ∧ c ≠ '#'
    rw [String.toList_ofList]
    intro c member
    simpa [isTextChar, isLineEnd, and_assoc] using plain.name_eq.2 c member

/-- Every document that is read from a listing is plain. -/
theorem plainDocument_of_read {source : String} {document : Document}
    (accepted : read source = .ok document) : PlainDocument document := by
  obtain ⟨program, parsed, meaning⟩ := read_eq_ok.mp accepted
  exact (plain_of_parse parsed).plainDocument meaning

/-- A movement is read wherever one of six characters stands. -/
theorem isSome_move_iff {cursor : Cursor} :
    (move cursor).result.isSome ↔
      ∃ c ∈ ['L', 'R', 'S', '<', '>', '-'], ∃ rest, cursor.rest = c :: rest := by
  have tokens (c : Char) : isMoveToken c ↔ c ∈ ['L', 'R', 'S', '<', '>', '-'] := by
    simp [isMoveToken, or_assoc]
  obtain ⟨offset, text⟩ := cursor
  cases text with
  | nil => simp [move, Phrase.named, Phrase.fail]
  | cons c rest =>
      by_cases isToken : isMoveToken c
      · simpa [move, Phrase.named, isToken] using (tokens c).mp isToken
      · simpa [move, Phrase.named, Phrase.fail, isToken] using mt (tokens c).mpr isToken

/-- Why a text is refused as a listing: it has the wrong form, or a part of it is wrong in another
way than that a token is no movement. Every program has a state to start in. -/
def Refusal.Possible : Refusal → Prop
  | .located (.unexpected _) => True
  | .located (.mistaken _ problem) => problem.Possible
  | .noInitialState => False

/-- Reading a listing refuses only for errors that are possible. -/
theorem refusesOnly_read (source : String) :
    Checks.RefusesOnly (read source) Refusal.Possible := by
  intro refusal refused
  unfold read at refused
  dsimp only at refused
  split at refused
  case h_1 =>
      cases refused
      trivial
  case h_2 program parsed =>
      have plain := plain_of_parse parsed
      have only := Program.refusesOnly_toDocument plain.spelled plain.someBlock
      split at refused
      case h_1 problem mistake =>
          cases refused
          exact only _ mistake
      case h_2 mistake => exact (only _ mistake).elim
      case h_3 => cases refused

/-- Whatever a text is, reading it as a listing is refused with an error of the listing, which is not
that a token is no movement, or it is a program that names an initial state and gives a plain
document. A movement is read exactly where one of six characters stands. -/
theorem reading_is_refused_or_plain (source : String) :
    ((∃ error, Format.listing.readDocument source = .error (.listing error) ∧
        (LoadError.listing error).message = "Description parsing error: " ++ error.message ∧
        ∀ position token, error ≠ .mistaken position (.unsupportedDirection token)) ∨
      ∃ program document, parse source.toList = .ok program ∧
        Format.listing.readDocument source = .ok document ∧
        program.initialState? = some document.initialState ∧ PlainDocument document) ∧
    ∀ cursor, (move cursor).result.isSome ↔
      ∃ c ∈ ['L', 'R', 'S', '<', '>', '-'], ∃ rest, cursor.rest = c :: rest := by
  refine ⟨?_, fun cursor => isSome_move_iff⟩
  cases reading : read source with
  | error refusal =>
      have possible := refusesOnly_read source refusal reading
      cases refusal with
      | noInitialState => exact possible.elim
      | located error =>
          refine .inl ⟨error, ?_, rfl, ?_⟩
          · rw [Format.readDocument, reading]
            rfl
          · rintro position token rfl
            exact possible token rfl
  | ok document =>
      obtain ⟨program, parsed, meaning⟩ := read_eq_ok.mp reading
      have plain := plain_of_parse parsed
      exact .inr ⟨program, document, parsed,
        by simp [Format.readDocument, reading, Except.mapError],
        (plain.initialState meaning).1, plain.plainDocument meaning⟩

end Listing

end TapeMachine
