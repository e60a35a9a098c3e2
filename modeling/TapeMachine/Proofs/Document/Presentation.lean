import TapeMachine.Document.Json
import TapeMachine.Proofs.Json.Printed

/-!
# Documents and how they are presented

A document may be written in JSON in many ways: its fields in any order, under either of their
names, with white space and escapes at will, with further members that mean nothing, and without the
fields that have their default. All these texts are read as the same document. A text in which a
required field is absent, or a field is there twice, is refused; this holds for the document and for
each of its actions.
-/

namespace TapeMachine

open Json

variable {limit : Nat} {layout : Layout}

/-! ## Values that were seen -/

namespace Json

variable {α : Type}

/-- What a draft holds of a value. -/
def given (seen : Bool) (value : α) : Option α :=
  if seen then some value else none

/-- A field is given if it was seen. -/
@[simp] theorem isSome_given (seen : Bool) (value : α) : (given seen value).isSome = seen := by
  cases seen <;> rfl

/-- A field that was seen has its value. -/
theorem given_eq_some {seen : Bool} (isSeen : seen = true ∨ False) (value : α) :
    given seen value = some value := by
  simp_all [given]

/-- A value is restored if it was seen or is the default. -/
theorem getD_given {seen : Bool} {value default : α} (known : seen = true ∨ value = default) :
    (given seen value).getD default = value := by
  cases seen with
  | false => simpa [given, eq_comm] using known
  | true => rfl

/-- A required field has the value that was read for it. -/
theorem required_eq_ok {value : Option α} {absent : Error} {result : α} :
    required value absent = .ok result ↔ value = some result := by
  cases value <;> simp [required]

end Json

/-- A list of strings is taken from each of its forms. -/
theorem takes_strings (values : List String) :
    Takes limit (Reader.list limit Reader.string) (Form.list Form.string values) values :=
  Takes.list takes_string values

/-! ## Actions -/

namespace ActionRecord

/-- The forms of the fields of an action. -/
def fieldForms (action : ActionRecord) : List Form.FieldForm :=
  [ ⟨["write"], Form.list Form.string action.write, False⟩,
    ⟨["move"], Form.list Form.string action.move, False⟩,
    ⟨["nextState", "next_state"], Form.string action.nextState, False⟩]

/-- The objects that present an action. -/
def presentations (action : ActionRecord) : Language Char :=
  Form.record action.fieldForms

/-- The names of the fields of actions, all of which are required. -/
def fieldNames : List (List String) :=
  [["write"], ["move"], ["nextState", "next_state"]]

/-- No two fields of the record have the same name. -/
theorem distinct_fields : (record limit).Distinct := by
  have apart : fieldNames.flatten.Nodup := by decide
  exact apart

/-- The objects in which a field of an action is absent or is there twice. -/
def flawed : Language Char :=
  Form.flawed fieldNames fieldNames

/-- The draft of an action of which some fields were seen. -/
def draftOf (action : ActionRecord) (seen : Nat → Bool) : ActionDraft where
  write := given (seen 0) action.write
  move := given (seen 1) action.move
  nextState := given (seen 2) action.nextState

/-- The members that present the record are read as its draft. -/
theorem presented (action : ActionRecord) :
    (record limit).Presented limit action.fieldForms action.draftOf where
  names := rfl
  distinct := distinct_fields
  start := rfl
  reads seen := by
    refine .cons ⟨isSome_given _ _, (takes_strings _).field rfl⟩ ?_
    refine .cons ⟨isSome_given _ _, (takes_strings _).field rfl⟩ ?_
    refine .cons ⟨isSome_given _ _, (takes_string _).field rfl⟩ ?_
    exact .nil

/-- An action is taken from every object that presents it. -/
theorem takes_presentations (action : ActionRecord) :
    Takes limit (reader limit) action.presentations action := by
  refine action.presented.takes fun seen complete => ?_
  simp only [record, draftOf, given_eq_some (complete 0 _ rfl),
    given_eq_some (complete 1 _ rfl), given_eq_some (complete 2 _ rfl)]
  rfl

/-- Reading a member marks its field as seen, and no other. -/
theorem marks : (record limit).Marks limit where
  distinct := distinct_fields
  regular := by
    have strings : Regular limit (Reader.list limit Reader.string) := regular_string.list
    simp only [record, List.forall_mem_cons]
    exact ⟨strings.field, strings.field, regular_string.field, by simp⟩
  start := by
    simp only [record, List.forall_mem_cons]
    exact ⟨rfl, rfl, rfl, by simp⟩
  reads := by
    simp only [record, List.zipIdx_cons, List.zipIdx_nil, List.forall_mem_cons]
    refine ⟨?_, ?_, ?_, by simp⟩
    all_goals
      intro draft text next left read
      obtain ⟨value, rfl⟩ := Field.exists_set_of_read read
      rfl

/-- The reader of documents never takes what is not a value. -/
theorem regular_reader : Regular limit (reader limit) :=
  Record.regular marks.regular

/-- An action is refused in which a field is absent or is there twice. -/
theorem refuses_flawed : Refuses limit (reader limit) flawed := by
  refine marks.refuses_flawed (fun names isName => isName) ?_
  intro draft action built
  simp only [record, Checks.bind_eq_ok, required_eq_ok] at built
  obtain ⟨write, hasWrite, move, hasMove, next, hasNext, -⟩ := built
  simp [fieldNames, record, Field.of, Field.names, hasWrite, hasMove, hasNext]

end ActionRecord

/-! ## Documents -/

namespace Document

/-- The forms of the fields of a document. -/
def fieldForms (document : Document) : List Form.FieldForm :=
  [ ⟨["name"], Form.string document.name, document.name = ""⟩,
    ⟨["description"], Form.string document.description, document.description = ""⟩,
    ⟨["states", "Q"], Form.list Form.string document.states, False⟩,
    ⟨["inputAlphabet", "Sigma"], Form.list Form.string document.inputAlphabet, False⟩,
    ⟨["tapeAlphabet", "Gamma"], Form.list Form.string document.tapeAlphabet, False⟩,
    ⟨["tapeCount", "num_tapes"], {Nat.toDigits 10 document.tapeCount}, False⟩,
    ⟨["initialState", "q0"], Form.string document.initialState, False⟩,
    ⟨["acceptingStates", "F"], Form.list Form.string document.acceptingStates, False⟩,
    ⟨["blank"], Form.string document.blank, document.blank = defaultBlank⟩,
    ⟨["wildcard"], Form.string document.wildcard, document.wildcard = defaultWildcard⟩,
    ⟨["unchanged"], Form.string document.unchanged, document.unchanged = defaultUnchanged⟩,
    ⟨["transitions", "delta"],
      Form.table (Form.table ActionRecord.presentations) document.transitions, False⟩]

/-- The objects that present a document. -/
def presentations (document : Document) : Language Char :=
  Form.record document.fieldForms

/-- The names of the fields of documents. -/
def fieldNames : List (List String) :=
  [["name"], ["description"], ["states", "Q"], ["inputAlphabet", "Sigma"],
    ["tapeAlphabet", "Gamma"], ["tapeCount", "num_tapes"], ["initialState", "q0"],
    ["acceptingStates", "F"], ["blank"], ["wildcard"], ["unchanged"], ["transitions", "delta"]]

/-- The names of the fields that have no default. -/
def requiredNames : List (List String) :=
  [["states", "Q"], ["inputAlphabet", "Sigma"], ["tapeAlphabet", "Gamma"],
    ["tapeCount", "num_tapes"], ["initialState", "q0"], ["acceptingStates", "F"],
    ["transitions", "delta"]]

/-- The objects in which a required field of a document is absent, or a field is there twice, or
which have such an object among their actions. -/
def flawed : Language Char :=
  Form.flawed fieldNames requiredNames +
    Form.containing {key | Form.Spells ["transitions", "delta"] key}
      (Form.containing Form.anyString (Form.containing Form.anyString ActionRecord.flawed))

theorem distinct_fields : (record limit).Distinct := by
  have apart : fieldNames.flatten.Nodup := by decide
  exact apart

/-- The draft of a document of which some fields were seen. -/
def draftOf (document : Document) (seen : Nat → Bool) : DocumentDraft where
  name := given (seen 0) document.name
  description := given (seen 1) document.description
  states := given (seen 2) document.states
  inputAlphabet := given (seen 3) document.inputAlphabet
  tapeAlphabet := given (seen 4) document.tapeAlphabet
  tapeCount := given (seen 5) document.tapeCount
  initialState := given (seen 6) document.initialState
  acceptingStates := given (seen 7) document.acceptingStates
  blank := given (seen 8) document.blank
  wildcard := given (seen 9) document.wildcard
  unchanged := given (seen 10) document.unchanged
  transitions := given (seen 11) document.transitions

theorem presented (document : Document) (fits : document.tapeCount < Text.wordLimit) :
    (record limit).Presented limit document.fieldForms document.draftOf where
  names := rfl
  distinct := distinct_fields
  start := rfl
  reads seen := by
    have takesRules : ∀ rules, Takes limit (Reader.table limit (ActionRecord.reader limit))
        (Form.table ActionRecord.presentations rules) rules :=
      .table ActionRecord.takes_presentations
    refine .cons ⟨isSome_given _ _, (takes_string _).field rfl⟩ ?_
    refine .cons ⟨isSome_given _ _, (takes_string _).field rfl⟩ ?_
    refine .cons ⟨isSome_given _ _, (takes_strings _).field rfl⟩ ?_
    refine .cons ⟨isSome_given _ _, (takes_strings _).field rfl⟩ ?_
    refine .cons ⟨isSome_given _ _, (takes_strings _).field rfl⟩ ?_
    refine .cons ⟨isSome_given _ _, (takes_numeral fits).field rfl⟩ ?_
    refine .cons ⟨isSome_given _ _, (takes_string _).field rfl⟩ ?_
    refine .cons ⟨isSome_given _ _, (takes_strings _).field rfl⟩ ?_
    refine .cons ⟨isSome_given _ _, (takes_string _).field rfl⟩ ?_
    refine .cons ⟨isSome_given _ _, (takes_string _).field rfl⟩ ?_
    refine .cons ⟨isSome_given _ _, (takes_string _).field rfl⟩ ?_
    refine .cons ⟨isSome_given _ _, (Takes.table takesRules _).field rfl⟩ ?_
    exact .nil

/-- A document is taken from every object that presents it. -/
theorem takes_presentations (document : Document) (fits : document.tapeCount < Text.wordLimit) :
    Takes limit (reader limit) document.presentations document := by
  refine (document.presented fits).takes fun seen complete => ?_
  simp only [record, draftOf, getD_given (complete 0 _ rfl),
    getD_given (complete 1 _ rfl), given_eq_some (complete 2 _ rfl),
    given_eq_some (complete 3 _ rfl), given_eq_some (complete 4 _ rfl),
    given_eq_some (complete 5 _ rfl), given_eq_some (complete 6 _ rfl),
    given_eq_some (complete 7 _ rfl), getD_given (complete 8 _ rfl),
    getD_given (complete 9 _ rfl), getD_given (complete 10 _ rfl),
    given_eq_some (complete 11 _ rfl)]
  rfl

theorem marks : (record limit).Marks limit where
  distinct := distinct_fields
  regular := by
    have string : Regular limit Reader.string := regular_string
    have strings : Regular limit (Reader.list limit Reader.string) := regular_string.list
    have rules : Regular limit
        (Reader.table limit (Reader.table limit (ActionRecord.reader limit))) :=
      ActionRecord.regular_reader.table.table
    simp only [record, List.forall_mem_cons]
    exact ⟨string.field, string.field, strings.field, strings.field, strings.field,
      (regular_natural _ _).field, string.field, strings.field, string.field, string.field,
      string.field, rules.field, by simp⟩
  start := by
    simp only [record, List.forall_mem_cons]
    exact ⟨rfl, rfl, rfl, rfl, rfl, rfl, rfl, rfl, rfl, rfl, rfl, rfl, by simp⟩
  reads := by
    simp only [record, List.zipIdx_cons, List.zipIdx_nil, List.forall_mem_cons]
    refine ⟨?_, ?_, ?_, ?_, ?_, ?_, ?_, ?_, ?_, ?_, ?_, ?_, by simp⟩
    all_goals
      intro draft text next left read
      obtain ⟨value, rfl⟩ := Field.exists_set_of_read read
      rfl

/-- A document is refused in which a required field is absent or a field is there twice. -/
theorem refuses_own_flaw :
    Refuses limit (reader limit) (Form.flawed fieldNames requiredNames) := by
  refine marks.refuses_flawed (fun names isName => isName) ?_
  intro draft document built
  simp only [record, Checks.bind_eq_ok, required_eq_ok] at built
  obtain ⟨states, hasStates, input, hasInput, tape, hasTape, count, hasCount, initial, hasInitial,
    accepting, hasAccepting, transitions, hasTransitions, -⟩ := built
  simp [requiredNames, record, Field.of, Field.names, hasStates, hasInput, hasTape, hasCount,
    hasInitial, hasAccepting, hasTransitions]

/-- A document is refused that has a flaw of its own or in one of its actions. -/
theorem refuses_flawed : Refuses limit (reader limit) flawed := by
  have rules : Refuses limit (Reader.table limit (Reader.table limit (ActionRecord.reader limit)))
      (Form.containing Form.anyString (Form.containing Form.anyString ActionRecord.flawed)) :=
    (ActionRecord.refuses_flawed.table ActionRecord.regular_reader).table
      ActionRecord.regular_reader.table
  rintro text (own | inAction)
  · exact refuses_own_flaw text own
  · have listed : (record limit).fields[11]? = some _ := rfl
    exact marks.refuses_field (List.mem_of_getElem? listed) rules.field text inAction

/-! ## Whole texts -/

/-- A document is read from each of its presentations, and no text with a flaw is read. -/
theorem json_presentation_is_irrelevant :
    (∀ (document : Document) (source : String), document.tapeCount < Text.wordLimit →
      source.toList ∈ Form.space * document.presentations * Form.space →
      ofJson source = .ok document) ∧
    (∀ source : String, source.toList ∈ Form.space * flawed * Form.space →
      ∃ error, ofJson source = .error error) := by
  constructor
  · intro document source fits presents
    exact readText_of_takes (fun limit => document.takes_presentations fits) presents
  · intro source isFlawed
    exact readText_of_refuses (fun limit => refuses_flawed) isFlawed

/-- A document with one rule. -/
def crossing : Document where
  name := ""
  description := "\"once\"\n"
  states := ["a", "b"]
  inputAlphabet := ["1"]
  tapeAlphabet := ["1", "_"]
  tapeCount := 1
  initialState := "a"
  acceptingStates := ["b"]
  blank := defaultBlank
  wildcard := defaultWildcard
  unchanged := defaultUnchanged
  transitions := [("a", [("1", { write := ["*"], move := ["R"], nextState := "b" })])]

/-- The members of its only action, with a note among them. -/
def crossingAction : List (String × Json) :=
  [ ("next_state", .string "b"), ("note", .object []), ("move", .strings ["R"]),
    ("write", .strings ["*"])]

/-- The document with one rule under its other names, with the members of its action and with
members behind its own. -/
def crossingMembers (action others : List (String × Json)) : List (String × Json) :=
  [ ("delta", .object [("a", .object [("1", .object action)])]),
    ("F", .strings ["b"]),
    ("q0", .string "a"),
    ("num_tapes", .number 1),
    ("description", .string "\"once\"\n"),
    ("Gamma", .strings ["1", "_"]),
    ("Sigma", .strings ["1"]),
    ("Q", .strings ["a", "b"])] ++ others

/-- With one more member that no field has, the members present the document. -/
theorem crossingMembers_mem (proper : layout.Proper) :
    renderAt layout 0 (.object (crossingMembers crossingAction
      [("note", .array [.null, .number 7])])) ∈ crossing.presentations := by
  have strings (depth : Nat) (values : List String) :
      renderAt layout depth (.strings values) ∈ Form.list Form.string values :=
    renderAt_strings_mem proper depth values
  have action (depth : Nat) : renderAt layout depth (.object crossingAction) ∈
      ActionRecord.presentations { write := ["*"], move := ["R"], nextState := "b" } := by
    refine renderAt_record_mem proper depth (presents_printed proper (depth + 1) ?_)
    simp only [ActionRecord.fieldForms, List.forall_mem_cons]
    exact ⟨.inl ⟨_, rfl, strings _ _⟩, .inl ⟨_, rfl, strings _ _⟩,
      .inl ⟨_, rfl, renderString_mem _⟩, by simp⟩
  have transitions : renderAt layout 1 (.object [("a", .object [("1", .object crossingAction)])]) ∈
      Form.table (Form.table ActionRecord.presentations) crossing.transitions := by
    refine renderAt_table_mem proper 1 (.cons ⟨rfl, ?_⟩ .nil)
    exact renderAt_table_mem proper 2 (.cons ⟨rfl, action 3⟩ .nil)
  refine renderAt_record_mem proper 0 (presents_printed proper 1 ?_)
  simp only [fieldForms, List.forall_mem_cons]
  have absent (name : String) (other : name ∉ ["delta", "F", "q0", "num_tapes", "description",
      "Gamma", "Sigma", "Q", "note"]) :
      ∀ member ∈ printed layout 1 (crossingMembers crossingAction
        [("note", .array [.null, .number 7])]), member.1 ∉ [name] := by
    intro member inside named
    exact other (List.mem_singleton.mp named ▸ List.mem_map_of_mem (f := Prod.fst) inside)
  exact ⟨.inr ⟨rfl, absent _ (by decide)⟩, .inl ⟨_, rfl, renderString_mem _⟩,
    .inl ⟨_, rfl, strings _ _⟩, .inl ⟨_, rfl, strings _ _⟩, .inl ⟨_, rfl, strings _ _⟩,
    .inl ⟨_, rfl, rfl⟩, .inl ⟨_, rfl, renderString_mem _⟩, .inl ⟨_, rfl, strings _ _⟩,
    .inr ⟨rfl, absent _ (by decide)⟩, .inr ⟨rfl, absent _ (by decide)⟩,
    .inr ⟨rfl, absent _ (by decide)⟩, .inl ⟨_, rfl, transitions⟩, by simp⟩

/-- With a field given twice, they are flawed. -/
theorem crossingMembers_twice (proper : layout.Proper) :
    renderAt layout 0 (.object (crossingMembers crossingAction [("states", .strings [])])) ∈
      flawed := by
  have twice : [("Q", .strings ["a", "b"]), ("states", .strings [])].Sublist
      (crossingMembers crossingAction [("states", .strings [])]) :=
    List.drop_sublist 7 (crossingMembers crossingAction [("states", .strings [])])
  refine .inl (renderAt_flawed_mem proper 0 (.inr ⟨["states", "Q"], by decide, ?_⟩))
  exact ⟨_, _, twice.map _, spells_renderString.mpr (by decide),
    spells_renderString.mpr (by decide)⟩

/-- Without a field of one of its actions, they are flawed. -/
theorem crossingMembers_incomplete (proper : layout.Proper) :
    renderAt layout 0 (.object (crossingMembers (crossingAction.eraseIdx 3) [])) ∈ flawed := by
  have key (name : String) : renderString name ∈ Form.anyString :=
    mem_anyString_of_mem_string (renderString_mem name)
  refine .inr (renderAt_containing_mem proper 0 (.head _) (spells_renderString.mpr (by decide)) ?_)
  refine renderAt_containing_mem proper 1 (.head _) (key "a") ?_
  refine renderAt_containing_mem proper 2 (.head _) (key "1") ?_
  refine renderAt_flawed_mem proper 3 (.inl ⟨["write"], by decide, ?_⟩)
  simp [crossingAction, spells_renderString]

/-- Other spellings and an extra member do not matter; a repeated and a missing field do. -/
theorem json_presentation_is_irrelevant_for_crossing :
    crossing.tapeCount < Text.wordLimit ∧
      ofJson (Json.render .pretty (.object (crossingMembers crossingAction
        [("note", .array [.null, .number 7])]))) = .ok crossing ∧
      (∃ error, ofJson (Json.render .pretty (.object (crossingMembers crossingAction
        [("states", .strings [])]))) = .error error) ∧
      ∃ error, ofJson (Json.render .pretty (.object (crossingMembers
        (crossingAction.eraseIdx 3) []))) = .error error := by
  have proper := Layout.proper_pretty
  exact ⟨by decide,
    json_presentation_is_irrelevant.1 crossing _ (by decide)
      (render_mem (crossingMembers_mem proper)),
    json_presentation_is_irrelevant.2 _ (render_mem (crossingMembers_twice proper)),
    json_presentation_is_irrelevant.2 _ (render_mem (crossingMembers_incomplete proper))⟩

end Document

end TapeMachine
