import TapeMachine.Proofs.Json.Presentation

/-!
# Flawed records are refused

An object is flawed if a required field is absent or a field is there twice, under any of its names.
`Record.Marks.refuses_flawed` says that such an object is refused, and `Record.Marks.refuses_field`
and `Refuses.table` that an object is refused with it wherever it stands.
-/

namespace TapeMachine.Json

namespace Form

/-- A key spells one of the names. -/
def Spells (names : List String) (key : List Char) : Prop :=
  ∃ name ∈ names, key ∈ string name

/-- A required field is absent, or a known one is there twice, under any of its names. -/
def Flawed (known required : List (List String)) (parts : List (List Char × List Char)) : Prop :=
  (∃ names ∈ required, ∀ part ∈ parts, ¬ Spells names part.1) ∨
    ∃ names ∈ known, ∃ first second, [first, second].Sublist parts ∧ Spells names first.1 ∧
      Spells names second.1

/-- The objects that are flawed, whatever else they have. -/
def flawed (known required : List (List String)) : Language Char :=
  {text | ∃ parts, AreMembers parts ∧ Flawed known required parts ∧ text ∈ object parts}

/-- The objects that have a member like this, whatever else they have. -/
def containing (keys values : Language Char) : Language Char :=
  {text | ∃ parts, AreMembers parts ∧ (∃ part ∈ parts, part.1 ∈ keys ∧ part.2 ∈ values) ∧
    text ∈ object parts}

end Form

variable {α σ : Type} {limit : Nat} {text : List Char} {reader : Reader α} {record : Record σ α}

/-- Every text of the form is a value, and the reader refuses it. -/
def Refuses (limit : Nat) (reader : Reader α) (form : Language Char) : Prop :=
  ∀ text ∈ form, Form.IsValue text ∧ Answers limit reader text none

/-! ## Marks -/

/-- How the marks of a record develop: no field is read in the first draft, and reading a field
marks that field only. -/
structure Record.Marks (record : Record σ α) (limit : Nat) : Prop where
  distinct : record.Distinct
  regular : ∀ field ∈ record.fields, ∀ draft, Regular limit (field.read draft)
  start : ∀ field ∈ record.fields, field.isRead record.draft = false
  reads : ∀ place ∈ record.fields.zipIdx, ∀ draft text next left,
    place.1.read draft text = .ok (next, left) →
      record.fields.map (·.isRead next) = (record.fields.map (·.isRead draft)).set place.2 true

/-- A text that is answered is read to its end if nothing follows it. -/
theorem Answers.read_alone {value : α} (answers : Answers limit reader text (some value))
    (opens : Opens text) (room : text.length ≤ limit) : reader text = .ok (value, []) := by
  refine answers.read (by simpa using opens.skipSpace_append []) ?_ room
  rintro c ⟨⟩

section Marks

variable {field : Field σ} {index : Nat} {draft last : σ} {parts : List (List Char × List Char)}

/-- Reading a field marks it and leaves the others as they are. -/
theorem Record.Marks.isRead_eq (marks : record.Marks limit) {next : σ}
    (position : record.fields[index]? = some field)
    (reads : Answers limit (field.read draft) text (some next)) (opens : Opens text)
    (room : text.length ≤ limit) {other : Field σ} {place : Nat}
    (otherPosition : record.fields[place]? = some other) :
    other.isRead next = (decide (index = place) || other.isRead draft) := by
  have placed : (field, index) ∈ record.fields.zipIdx :=
    List.mem_zipIdx_iff_getElem?.mpr position
  have same := congrArg (·[place]?)
    (marks.reads _ placed draft text next [] (reads.read_alone opens room))
  simp only [List.getElem?_map, otherPosition, Option.map_some, List.getElem?_set] at same
  by_cases here : index = place
  · subst here
    obtain ⟨bound, -⟩ := List.getElem?_eq_some_iff.mp position
    simpa [bound] using same
  · simpa [here] using same

/-- A field that was read is named by no later member. -/
theorem Record.Marks.not_spells (marks : record.Marks limit)
    (position : record.fields[index]? = some field)
    (follows : record.Follows limit draft parts (some last))
    (values : ∀ part ∈ parts, Opens part.2 ∧ part.2.length ≤ limit)
    (present : field.isRead draft = true) :
    ∀ part ∈ parts, ¬ Form.Spells field.names part.1 := by
  generalize target : some last = answer at follows
  induction follows with
  | done => simp
  | nameless | repeated | refused => cases target
  | @field draft next _ part parts key other named found absent reads later ih =>
      obtain ⟨⟨opens, room⟩, valuesLater⟩ := List.forall_mem_cons.mp values
      obtain ⟨otherNamed, place, placed⟩ := Record.exists_of_find? found
      have still := marks.isRead_eq placed reads opens room position
      rw [present, Bool.or_true] at still
      refine List.forall_mem_cons.mpr ⟨?_, ih valuesLater still target⟩
      rintro ⟨name, isName, spelled⟩
      obtain rfl := eq_of_mem_string named spelled
      obtain rfl : other = field := by
        simpa [found] using marks.distinct.find?_eq position isName
      rw [present] at absent
      cases absent
  | @other draft _ part parts key named unknown later ih =>
      obtain ⟨-, valuesLater⟩ := List.forall_mem_cons.mp values
      refine List.forall_mem_cons.mpr ⟨?_, ih valuesLater present target⟩
      rintro ⟨name, isName, spelled⟩
      obtain rfl := eq_of_mem_string named spelled
      simp [marks.distinct.find?_eq position isName] at unknown

/-- No field is named by two members. -/
theorem Record.Marks.not_twice (marks : record.Marks limit)
    (position : record.fields[index]? = some field)
    (follows : record.Follows limit draft parts (some last))
    (values : ∀ part ∈ parts, Opens part.2 ∧ part.2.length ≤ limit)
    {first second : List Char × List Char} (twice : [first, second].Sublist parts)
    (spellsFirst : Form.Spells field.names first.1) :
    ¬ Form.Spells field.names second.1 := by
  generalize target : some last = answer at follows
  induction follows with
  | done => cases twice
  | nameless | repeated | refused => cases target
  | @field draft next _ part parts key other named found absent reads later ih =>
      obtain ⟨⟨opens, room⟩, valuesLater⟩ := List.forall_mem_cons.mp values
      cases twice with
      | cons _ within => exact ih valuesLater within target
      | cons_cons _ within =>
          obtain ⟨name, isName, spelled⟩ := spellsFirst
          obtain rfl := eq_of_mem_string named spelled
          obtain rfl : other = field := by
            simpa [found] using marks.distinct.find?_eq position isName
          have read := marks.isRead_eq position reads opens room position
          rw [decide_eq_true rfl, Bool.true_or] at read
          subst target
          exact marks.not_spells position later valuesLater read second
            (List.singleton_sublist.mp within)
  | @other draft _ part parts key named unknown later ih =>
      obtain ⟨-, valuesLater⟩ := List.forall_mem_cons.mp values
      cases twice with
      | cons _ within => exact ih valuesLater within target
      | cons_cons _ within =>
          obtain ⟨name, isName, spelled⟩ := spellsFirst
          obtain rfl := eq_of_mem_string named spelled
          simp [marks.distinct.find?_eq position isName] at unknown

/-- A field that no member names is not read. -/
theorem Record.Marks.isRead_eq_false (marks : record.Marks limit)
    (position : record.fields[index]? = some field)
    (follows : record.Follows limit draft parts (some last))
    (values : ∀ part ∈ parts, Opens part.2 ∧ part.2.length ≤ limit)
    (absent : ∀ part ∈ parts, ¬ Form.Spells field.names part.1)
    (fresh : field.isRead draft = false) : field.isRead last = false := by
  generalize target : some last = answer at follows
  induction follows with
  | done => exact Option.some.inj target ▸ fresh
  | nameless | repeated | refused => cases target
  | @field draft next _ part parts key other named found _ reads later ih =>
      obtain ⟨⟨opens, room⟩, valuesLater⟩ := List.forall_mem_cons.mp values
      obtain ⟨absentHere, absentLater⟩ := List.forall_mem_cons.mp absent
      obtain ⟨otherNamed, place, placed⟩ := Record.exists_of_find? found
      have apart : place ≠ index := by
        rintro rfl
        obtain rfl : other = field := by simpa [placed] using position
        exact absentHere ⟨key, otherNamed, named⟩
      have still := marks.isRead_eq placed reads opens room position
      rw [fresh, Bool.or_false, decide_eq_false apart] at still
      exact ih valuesLater absentLater still target
  | @other draft _ part parts key named unknown later ih =>
      obtain ⟨-, valuesLater⟩ := List.forall_mem_cons.mp values
      obtain ⟨-, absentLater⟩ := List.forall_mem_cons.mp absent
      exact ih valuesLater absentLater fresh target

/-- A field whose value is refused is not read. -/
theorem Record.Marks.not_refused (marks : record.Marks limit)
    (position : record.fields[index]? = some field)
    (follows : record.Follows limit draft parts (some last))
    (values : ∀ part ∈ parts, Opens part.2 ∧ part.2.length ≤ limit)
    {part : List Char × List Char} (listed : part ∈ parts)
    (spells : Form.Spells field.names part.1) :
    ∃ draft, ¬ Answers limit (field.read draft) part.2 none := by
  generalize target : some last = answer at follows
  induction follows with
  | done => cases listed
  | nameless | repeated | refused => cases target
  | @field draft next _ here parts key other named found _ reads later ih =>
      obtain ⟨⟨opens, room⟩, valuesLater⟩ := List.forall_mem_cons.mp values
      rcases List.mem_cons.mp listed with rfl | listedLater
      · obtain ⟨name, isName, spelled⟩ := spells
        obtain rfl := eq_of_mem_string named spelled
        obtain rfl : other = field := by
          simpa [found] using marks.distinct.find?_eq position isName
        refine ⟨draft, fun refused => ?_⟩
        cases refused.unique reads opens room
      · exact ih valuesLater listedLater target
  | @other draft _ here parts key named unknown later ih =>
      obtain ⟨-, valuesLater⟩ := List.forall_mem_cons.mp values
      rcases List.mem_cons.mp listed with rfl | listedLater
      · obtain ⟨name, isName, spelled⟩ := spells
        obtain rfl := eq_of_mem_string named spelled
        simp [marks.distinct.find?_eq position isName] at unknown
      · exact ih valuesLater listedLater target

/-- An object is refused if all its last drafts are. -/
theorem Record.Marks.answers_none (marks : record.Marks limit) (areMembers : AreMembers parts)
    (listed : text ∈ Form.object parts)
    (refuses : ∀ last, (∀ part ∈ parts, Opens part.2 ∧ part.2.length ≤ limit) →
      record.Follows limit record.draft parts (some last) →
      ∃ error, record.build (fun _ name => .missingField name) last = .error error) :
    Answers limit (record.read limit) text none := by
  intro full rest start delimited room
  obtain ⟨last, follows⟩ := Record.exists_follows marks.regular areMembers record.draft
  rw [follows.answers areMembers listed full rest start delimited room]
  cases last with
  | none => rfl
  | some last =>
      obtain ⟨error, failed⟩ := refuses last (areMembers.values listed room) follows
      simp [failed, Except.toOption]

/-- An object in which a required field is absent or a field is there twice is refused. -/
theorem Record.Marks.refuses_flawed (marks : record.Marks limit)
    {known required : List (List String)}
    (isKnown : ∀ names ∈ known, names ∈ record.fields.map Field.names)
    (isRequired : ∀ draft value,
      record.build (fun _ name => .missingField name) draft = .ok value →
        ∀ names ∈ required, ∃ field ∈ record.fields,
          field.names = names ∧ field.isRead draft = true) :
    Refuses limit (record.read limit) (Form.flawed known required) := by
  rintro text ⟨parts, areMembers, flawed, listed⟩
  refine ⟨areMembers.isValue listed, marks.answers_none areMembers listed ?_⟩
  intro last values follows
  rcases flawed with ⟨_, isName, absent⟩ | ⟨_, isName, first, second, twice, spells, spellsToo⟩
  · cases built : record.build (fun _ name => .missingField name) last with
    | error error => exact ⟨error, rfl⟩
    | ok value =>
        obtain ⟨field, isField, rfl, present⟩ := isRequired last value built _ isName
        obtain ⟨index, position⟩ := List.mem_iff_getElem?.mp isField
        have fresh := marks.start field isField
        simp [marks.isRead_eq_false position follows values absent fresh] at present
  · obtain ⟨field, isField, rfl⟩ := List.mem_map.mp (isKnown _ isName)
    obtain ⟨index, position⟩ := List.mem_iff_getElem?.mp isField
    exact absurd spellsToo (marks.not_twice position follows values twice spells)

/-- An object is refused in which the value of a field is refused. -/
theorem Record.Marks.refuses_field (marks : record.Marks limit) {form : Language Char}
    (isField : field ∈ record.fields) (refuses : ∀ draft, Refuses limit (field.read draft) form) :
    Refuses limit (record.read limit)
      (Form.containing {key | Form.Spells field.names key} form) := by
  rintro text ⟨parts, areMembers, ⟨part, inside, spells, isForm⟩, listed⟩
  obtain ⟨index, position⟩ := List.mem_iff_getElem?.mp isField
  refine ⟨areMembers.isValue listed, marks.answers_none areMembers listed ?_⟩
  intro last values follows
  obtain ⟨draft, read⟩ := marks.not_refused position follows values inside spells
  exact absurd (refuses draft part.2 isForm).2 read

end Marks

/-- A table is refused in which a value is refused. -/
theorem Refuses.table {form : Language Char} (refuses : Refuses limit reader form)
    (regular : Regular limit reader) :
    Refuses limit (Reader.table limit reader) (Form.containing Form.anyString form) := by
  rintro text ⟨parts, areMembers, ⟨part, inside, -, isForm⟩, listed⟩
  have each : ∃ answers, List.Forall₂ (fun other answer =>
      AnswersEntry limit reader other answer ∧ (other = part → answer = none)) parts answers := by
    refine Checks.exists_forall₂.mpr fun other isOther => ?_
    obtain ⟨isKey, isValue⟩ := areMembers other isOther
    obtain ⟨key, readsKey⟩ := regular_string other.1 (.string isKey)
    by_cases same : other = part
    · subst same
      have refused := (refuses other.2 isForm).2
      exact ⟨_, ⟨key, none, readsKey, refused, rfl⟩, fun _ => by cases key <;> rfl⟩
    · obtain ⟨value, reads⟩ := regular other.2 isValue
      exact ⟨_, ⟨key, value, readsKey, reads, rfl⟩, fun equal => absurd equal same⟩
  obtain ⟨answers, each⟩ := each
  obtain ⟨answer, isAnswer, -, none⟩ := Checks.exists_mem_of_forall₂ each.flip inside
  refine ⟨areMembers.isValue listed, ?_⟩
  rw [← together_eq_none (none rfl ▸ isAnswer)]
  exact answers_table areMembers (each.imp fun _ _ both => both.1) listed

/-! ## Fields in optional components -/

section Optional

variable {β : Type} {name : String} {alternative : Option String} {get : σ → Option β}
  {set : σ → β → σ} {part : Reader β} {form : Language Char}

/-- A field refuses what its reader refuses. -/
theorem Refuses.field (refuses : Refuses limit part form) (draft : σ) :
    Refuses limit ((Field.of name alternative get set part).read draft) form := by
  intro text isForm
  obtain ⟨isValue, reads⟩ := refuses text isForm
  exact ⟨isValue, reads.field draft⟩

/-- Reading a field changes the draft in that field only. -/
theorem Field.exists_set_of_read {draft next : σ} {left : List Char}
    (read : (Field.of name alternative get set part).read draft text = .ok (next, left)) :
    ∃ value, next = set draft value := by
  simp only [Field.of, Checks.bind_eq_ok, Checks.pure_eq_ok, Prod.mk.injEq] at read
  obtain ⟨found, -, rfl, -⟩ := read
  exact ⟨found.1, rfl⟩

end Optional

/-- A text is refused if its value is. -/
theorem readText_of_refuses {whole : Nat → Reader α} {form : Language Char} {source : String}
    (refuses : ∀ limit, Refuses limit (whole limit) form)
    (isText : source.toList ∈ Form.space * form * Form.space) :
    ∃ error, readText whole source = .error error := by
  obtain ⟨text, isForm, after, isAfter, room, start⟩ := exists_of_mem_surrounded isText
  obtain ⟨isValue, reads⟩ := refuses source.toList.length text isForm
  obtain ⟨error, failed⟩ :=
    reads.refused (start isValue.opens) (delimited_of_mem_space isAfter) room
  exact ⟨error, by simp [readText, failed, bind, Except.bind]⟩

end TapeMachine.Json
