import TapeMachine.Proofs.Json.Answers

/-!
# What readers of objects answer

Tables and records are read member by member. `Record.Follows` says how the members of an object
change the draft of a record, and which of them make the reader give up: a key without a value, a
field that was read before, and a field whose reader refuses. A record may also be written as a list
of its fields in order.
-/

namespace TapeMachine.Json

variable {α σ : Type} {limit : Nat} {text full rest : List Char}

/-! ## Members -/

/-- The keys and values of an object that is written as JSON demands. -/
def AreMembers (parts : List (List Char × List Char)) : Prop :=
  ∀ part ∈ parts, part.1 ∈ Form.anyString ∧ Form.IsValue part.2

/-- An object is a value if its members are members. -/
theorem AreMembers.isValue {parts : List (List Char × List Char)} (areMembers : AreMembers parts)
    (listed : text ∈ Form.object parts) : Form.IsValue text :=
  .object (fun part inside => (areMembers part inside).1)
    (fun part inside => (areMembers part inside).2) listed

/-- A member starts with the quote of its key. -/
theorem exists_cons_of_mem_member {item : List Char} {part : List Char × List Char}
    (isKey : part.1 ∈ Form.anyString) (isMember : item ∈ Form.member part) :
    ∃ others, item = '"' :: others := by
  obtain ⟨before, -, behind, -, rfl⟩ := Form.mem_member.mp isMember
  obtain ⟨body, quoted, -⟩ := skipString_of_mem isKey
  exact ⟨body ++ _, by rw [quoted]; rfl⟩

/-- Every later member stands after a comma. -/
theorem nextMember_later {inside others : List Char} (comma : skipSpace full = ',' :: inside)
    (start : skipSpace inside = '"' :: others) :
    Reader.nextMember false full = .ok (true, '"' :: others) := by
  rw [Reader.nextMember, comma]
  split
  case h_1 empty => cases empty
  case h_2 closed => exact absurd (List.cons.inj closed).1 (by decide)
  case h_3 =>
    rw [if_neg Bool.false_ne_true]
    split
    case h_1 same =>
      obtain ⟨-, rfl⟩ := List.cons.inj same
      rw [start]
      rfl
    case h_2 other => exact absurd rfl (other inside)

/-- The members of an object are found one after the other. -/
theorem finds_nextMember {items : List (List Char)}
    (quoted : ∀ item ∈ items, ∃ others, item = '"' :: others) :
    Finds Reader.nextMember '\x7d' items where
  visible := by decide
  closes := .inr rfl
  opens item inside := by
    obtain ⟨others, rfl⟩ := quoted item inside
    exact ⟨'"', others, rfl, by decide⟩
  ends start := by simp only [Reader.nextMember, start]
  starts item inside {full rest} start := by
    obtain ⟨others, rfl⟩ := quoted item inside
    rw [Reader.nextMember, start]
    rfl
  follows item listed {full inside rest} comma start := by
    obtain ⟨others, rfl⟩ := quoted item listed
    exact nextMember_later comma start

/-- The key and the value of a member are no longer than the member. -/
theorem length_le_of_mem_member {item : List Char} {part : List Char × List Char}
    (isMember : item ∈ Form.member part) :
    part.1.length ≤ item.length ∧ part.2.length ≤ item.length := by
  obtain ⟨before, -, behind, -, rfl⟩ := Form.mem_member.mp isMember
  simp only [List.length_append, List.length_cons]
  omega

/-- The key of a member is read up to its colon, and its value stands behind it. -/
theorem exists_of_member {item : List Char} {part : List Char × List Char}
    (isMember : item ∈ Form.member part) (isKey : part.1 ∈ Form.anyString) (opens : Opens part.2)
    (room : item.length ≤ limit) (after : List Char) :
    ∃ coloned valued, Reader.colon coloned = .ok valued ∧ skipSpace valued = part.2 ++ after ∧
      ∀ key, Answers limit Reader.string part.1 key →
        (Reader.string (item ++ after)).toOption = key.map (·, coloned) := by
  have short := (length_le_of_mem_member isMember).1
  obtain ⟨before, isBefore, behind, isBehind, rfl⟩ := Form.mem_member.mp isMember
  refine ⟨before ++ (':' :: (behind ++ (part.2 ++ after))), behind ++ (part.2 ++ after), ?_,
    opens.skipSpace_eq isBehind after, fun key reads => ?_⟩
  · rw [Reader.colon, skipSpace_space_append isBefore, skipSpace_cons (by decide)]
    rfl
  · refine reads _ _ ?_ (Delimited.space_append isBefore (delimited_cons (by decide) _)) (by omega)
    simpa using (opens_string isKey).skipSpace_append _

/-! ## Tables -/

/-- The reader has this answer for the entry of a table. -/
def AnswersEntry (limit : Nat) (reader : Reader α) (part : List Char × List Char)
    (answer : Option (String × α)) : Prop :=
  ∃ key value, Answers limit Reader.string part.1 key ∧ Answers limit reader part.2 value ∧
    answer = key.bind fun name => value.map (name, ·)

/-- The entries of a table are read one after the other. -/
theorem entries_walk {reader : Reader α} {items : List (List Char)}
    {parts : List (List Char × List Char)} {answers : List (Option (String × α))} {first : Bool}
    (walks : Walks Reader.nextMember '\x7d' limit rest first full items)
    (members : List.Forall₂ (fun item part => item ∈ Form.member part) items parts)
    (areMembers : AreMembers parts)
    (each : List.Forall₂ (AnswersEntry limit reader) parts answers)
    {fuel : Nat} (enough : items.length < fuel) (done : Table α) :
    (Reader.entries reader fuel first done full).toOption =
      (together answers).map fun values => (done.reverse ++ values, '\x7d' :: rest) := by
  induction walks generalizing parts answers fuel done with
  | closed ends =>
      cases members
      cases each
      obtain ⟨fuel, rfl⟩ : ∃ more, fuel = more + 1 := ⟨fuel - 1, by omega⟩
      simp [Reader.entries, ends, together, Except.toOption, bind, Except.bind, pure, Except.pure]
  | @item first full item after items follows delimited room later ih =>
      obtain ⟨part, parts, isMember, isOthers, rfl⟩ := List.forall₂_cons_left_iff.mp members
      obtain ⟨_, answers, ⟨key, value, readsKey, reads, rfl⟩, others, rfl⟩ :=
        List.forall₂_cons_left_iff.mp each
      obtain ⟨⟨isKey, isValue⟩, areOthers⟩ := List.forall_mem_cons.mp areMembers
      obtain ⟨coloned, valued, colon, start, readKey⟩ :=
        exists_of_member isMember isKey isValue.opens room after
      have short := (length_le_of_mem_member isMember).2
      obtain ⟨fuel, rfl⟩ : ∃ more, fuel = more + 1 := ⟨fuel - 1, by omega⟩
      have bounded := Nat.lt_of_succ_lt_succ enough
      have readKey := readKey key readsKey
      have read := reads valued after start delimited (by omega)
      rw [Reader.entries, follows]
      -- A refused key or value refuses the table, whatever its other entries are.
      cases key with
      | none =>
          obtain ⟨error, failed⟩ := Checks.toOption_eq_none.mp readKey
          simp [together, bind, Except.bind, failed]
      | some name =>
          have named := Checks.toOption_eq_some.mp readKey
          cases value with
          | none =>
              obtain ⟨error, failed⟩ := Checks.toOption_eq_none.mp read
              simp [together, bind, Except.bind, named, colon, failed]
          | some value =>
              have succeeded := Checks.toOption_eq_some.mp read
              simp [together, bind, Except.bind, named, colon, succeeded,
                ih isOthers areOthers others bounded, Function.comp_def]

/-- An object is closed by its brace. -/
theorem closeObject_eq (rest : List Char) : Reader.closeObject ('\x7d' :: rest) = .ok rest := by
  rw [Reader.closeObject, skipSpace_cons (by decide)]
  rfl

/-- A loop walks through an object member by member. -/
theorem AreMembers.walks {parts : List (List Char × List Char)} (areMembers : AreMembers parts)
    (limit : Nat) (listed : text ∈ Form.object parts) :
    ∃ items inside, List.Forall₂ (fun item part => item ∈ Form.member part) items parts ∧
      text = '\x7b' :: inside ∧ (text.length ≤ limit → items.length < limit + 1 ∧
        ∀ rest, Walks Reader.nextMember '\x7d' limit rest true (inside ++ rest) items) := by
  obtain ⟨items, members, bracket⟩ := listed
  have quoted : ∀ item ∈ items, ∃ others, item = '"' :: others := by
    intro item inside
    obtain ⟨part, listedPart, isMember⟩ := Checks.exists_mem_of_forall₂ members.flip inside
    exact exists_cons_of_mem_member (areMembers part listedPart).1 isMember
  obtain ⟨inside, opened, walks⟩ := (finds_nextMember quoted).walks limit bracket
  exact ⟨items, inside, members, opened, walks⟩

/-- The values of an object are no longer than the object. -/
theorem AreMembers.values {parts : List (List Char × List Char)} (areMembers : AreMembers parts)
    (listed : text ∈ Form.object parts) (room : text.length ≤ limit) :
    ∀ part ∈ parts, Opens part.2 ∧ part.2.length ≤ limit := by
  intro part inside
  obtain ⟨items, opened, members, -, walks⟩ := areMembers.walks limit listed
  obtain ⟨item, isItem, isMember⟩ := Checks.exists_mem_of_forall₂ members inside
  have short := (length_le_of_mem_member isMember).2
  have fits := ((walks room).2 []).length_le item isItem
  exact ⟨(areMembers part inside).2.opens, by omega⟩

/-- The answer for a table is made of the answers for its entries. -/
theorem answers_table {reader : Reader α} {parts : List (List Char × List Char)}
    {answers : List (Option (String × α))} (areMembers : AreMembers parts)
    (each : List.Forall₂ (AnswersEntry limit reader) parts answers)
    (listed : text ∈ Form.object parts) :
    Answers limit (Reader.table limit reader) text (together answers) := by
  obtain ⟨items, inside, members, rfl, walks⟩ := areMembers.walks limit listed
  intro full rest start _ room
  obtain ⟨enough, walks⟩ := walks room
  have read := entries_walk (walks rest) members areMembers each enough []
  rw [List.cons_append] at start
  simp only [Reader.table, start, Checks.toOption_bind, read]
  cases together answers <;> simp [closeObject_eq, pure, Except.pure, Except.toOption]

/-- No table is read where another character than a brace stands. -/
theorem table_refuses {reader : Reader α} {c : Char} {others : List Char}
    (start : skipSpace full = c :: others) (other : c ≠ '\x7b') :
    Reader.table limit reader full = .error (wrongType .map (c :: others)) := by
  simp only [Reader.table, start]
  split
  case h_1 empty => cases empty
  case h_2 bracket => exact absurd (List.cons.inj bracket).1 other
  case h_3 => rfl

/-- The reader of tables is regular if the reader of their values is. -/
theorem Regular.table {reader : Reader α} (regular : Regular limit reader) :
    Regular limit (Reader.table limit reader) := by
  intro text isValue
  obtain ⟨c, others, rfl, shape⟩ := isValue.cases_first
  by_cases bracket : c = '\x7b'
  · obtain ⟨parts, areMembers, listed⟩ : ∃ parts, AreMembers parts ∧
        c :: others ∈ Form.object parts := by
      subst bracket
      simpa [AreMembers] using shape
    have each : ∃ answers, List.Forall₂ (AnswersEntry limit reader) parts answers := by
      refine Checks.exists_forall₂.mpr fun part inside => ?_
      obtain ⟨isKey, isValue⟩ := areMembers part inside
      obtain ⟨key, readsKey⟩ := regular_string part.1 (.string isKey)
      obtain ⟨value, reads⟩ := regular part.2 isValue
      exact ⟨_, key, value, readsKey, reads, rfl⟩
    obtain ⟨answers, each⟩ := each
    exact ⟨_, answers_table areMembers each listed⟩
  · exact ⟨none, answers_none fun full rest start _ => ⟨_, table_refuses start bracket⟩⟩

/-- A table is taken from the forms of its keys and values. -/
theorem Takes.table {reader : Reader α} {form : α → Language Char}
    (takes : ∀ value, Takes limit reader (form value) value) (entries : Table α) :
    Takes limit (Reader.table limit reader) (Form.table form entries) entries := by
  rintro text ⟨parts, each, listed⟩
  have areMembers : AreMembers parts := by
    intro part inside
    obtain ⟨entry, -, isKey, isForm⟩ := Checks.exists_mem_of_forall₂ each.flip inside
    exact ⟨mem_anyString_of_mem_string isKey, (takes entry.2 part.2 isForm).1⟩
  have answers : List.Forall₂ (AnswersEntry limit reader) parts (entries.map some) := by
    rw [List.forall₂_map_right_iff]
    refine each.imp fun part entry forms => ?_
    exact ⟨_, _, answers_string forms.1, (takes entry.2 part.2 forms.2).2, rfl⟩
  refine ⟨areMembers.isValue listed, ?_⟩
  have read := answers_table areMembers answers listed
  rwa [together_map_some] at read

/-! ## Records -/

/-- How the members of an object change the draft of a record. There is no last draft where a member
makes the reader give up. -/
inductive Record.Follows (record : Record σ α) (limit : Nat) :
    σ → List (List Char × List Char) → Option σ → Prop
  | done (draft : σ) : record.Follows limit draft [] (some draft)
  | nameless {draft : σ} {part : List Char × List Char} {parts : List (List Char × List Char)}
      (refused : Answers limit Reader.string part.1 none) :
      record.Follows limit draft (part :: parts) none
  | repeated {draft : σ} {part : List Char × List Char} {parts : List (List Char × List Char)}
      {key : String} {field : Field σ} (named : part.1 ∈ Form.string key)
      (found : record.fields.find? (·.answersTo key) = some field)
      (present : field.isRead draft = true) : record.Follows limit draft (part :: parts) none
  | refused {draft : σ} {part : List Char × List Char} {parts : List (List Char × List Char)}
      {key : String} {field : Field σ} (named : part.1 ∈ Form.string key)
      (found : record.fields.find? (·.answersTo key) = some field)
      (absent : field.isRead draft = false)
      (refused : Answers limit (field.read draft) part.2 none) :
      record.Follows limit draft (part :: parts) none
  | field {draft next : σ} {last : Option σ} {part : List Char × List Char}
      {parts : List (List Char × List Char)} {key : String} {field : Field σ}
      (named : part.1 ∈ Form.string key)
      (found : record.fields.find? (·.answersTo key) = some field)
      (absent : field.isRead draft = false)
      (reads : Answers limit (field.read draft) part.2 (some next))
      (later : record.Follows limit next parts last) :
      record.Follows limit draft (part :: parts) last
  | other {draft : σ} {last : Option σ} {part : List Char × List Char}
      {parts : List (List Char × List Char)} {key : String} (named : part.1 ∈ Form.string key)
      (unknown : record.fields.find? (·.answersTo key) = none)
      (later : record.Follows limit draft parts last) :
      record.Follows limit draft (part :: parts) last

/-- The members of an object are read one after the other. -/
theorem Record.Follows.readMembers {record : Record σ α} {draft : σ} {last : Option σ}
    {items : List (List Char)} {parts : List (List Char × List Char)} {first : Bool}
    (follows : record.Follows limit draft parts last)
    (walks : Walks Reader.nextMember '\x7d' limit rest first full items)
    (members : List.Forall₂ (fun item part => item ∈ Form.member part) items parts)
    (areMembers : AreMembers parts) {fuel : Nat} (enough : items.length < fuel) :
    (record.readMembers limit fuel first draft full).toOption =
      last.map (·, '\x7d' :: rest) := by
  -- What was read before is in the draft, so nothing else is kept of the members passed.
  induction walks generalizing draft parts last fuel with
  | closed ends =>
      cases members
      cases follows
      obtain ⟨fuel, rfl⟩ : ∃ more, fuel = more + 1 := ⟨fuel - 1, by omega⟩
      simp [Record.readMembers, ends, Except.toOption, bind, Except.bind, pure, Except.pure]
  | @item first full item after items next delimited room later ih =>
      obtain ⟨part, parts, isMember, isOthers, rfl⟩ := List.forall₂_cons_left_iff.mp members
      obtain ⟨⟨isKey, isValue⟩, areOthers⟩ := List.forall_mem_cons.mp areMembers
      obtain ⟨coloned, valued, colon, start, readKey⟩ :=
        exists_of_member isMember isKey isValue.opens room after
      have short := (length_le_of_mem_member isMember).2
      obtain ⟨fuel, rfl⟩ : ∃ more, fuel = more + 1 := ⟨fuel - 1, by omega⟩
      have bounded := Nat.lt_of_succ_lt_succ enough
      rw [Record.readMembers, next]
      cases follows with
      | nameless refused =>
          obtain ⟨error, failed⟩ := Checks.toOption_eq_none.mp (readKey _ refused)
          simp [bind, Except.bind, failed]
      | repeated named found present =>
          have named := Checks.toOption_eq_some.mp (readKey _ (answers_string named))
          simp [bind, Except.bind, named, found, present, throw, throwThe, MonadExceptOf.throw]
      | refused named found absent refused =>
          have named := Checks.toOption_eq_some.mp (readKey _ (answers_string named))
          obtain ⟨error, failed⟩ := refused.refused start delimited (by omega)
          simp [bind, Except.bind, named, found, absent, colon, failed]
      | field named found absent reads follows =>
          have named := Checks.toOption_eq_some.mp (readKey _ (answers_string named))
          have succeeded := reads.read start delimited (by omega)
          simp [bind, Except.bind, named, found, absent, colon, succeeded,
            ih follows isOthers areOthers bounded]
      | other named unknown follows =>
          have named := Checks.toOption_eq_some.mp (readKey _ (answers_string named))
          have skipped := isValue.skipValue_eq (by omega : part.2.length ≤ limit) start delimited
          simp [bind, Except.bind, named, unknown, colon, skipped,
            ih follows isOthers areOthers bounded]

/-- The answer for an object is the record of its last draft. -/
theorem Record.Follows.answers {record : Record σ α} {last : Option σ}
    {parts : List (List Char × List Char)} (follows : record.Follows limit record.draft parts last)
    (areMembers : AreMembers parts) (listed : text ∈ Form.object parts) :
    Answers limit (record.read limit) text
      (last.bind fun draft =>
        (record.build (fun _ name => .missingField name) draft).toOption) := by
  obtain ⟨items, inside, members, rfl, walks⟩ := areMembers.walks limit listed
  intro full rest start _ room
  obtain ⟨enough, walks⟩ := walks room
  have read := follows.readMembers (walks rest) members areMembers enough
  rw [List.cons_append] at start
  simp only [Record.read, start, Checks.toOption_bind, read]
  cases last with
  | none => rfl
  | some draft =>
      cases built : record.build (fun _ name => .missingField name) draft <;>
        simp [built, closeObject_eq, pure, Except.pure, Except.toOption]

/-- The members of an object can always be followed. -/
theorem Record.exists_follows {record : Record σ α}
    (regular : ∀ field ∈ record.fields, ∀ draft, Regular limit (field.read draft))
    {parts : List (List Char × List Char)} (areMembers : AreMembers parts) (draft : σ) :
    ∃ last, record.Follows limit draft parts last := by
  induction parts generalizing draft with
  | nil => exact ⟨_, .done draft⟩
  | cons part parts ih =>
      obtain ⟨⟨isKey, isValue⟩, areOthers⟩ := List.forall_mem_cons.mp areMembers
      rcases exists_value_or_answers_none isKey with ⟨key, named⟩ | refused
      · cases found : record.fields.find? (·.answersTo key) with
        | none =>
            obtain ⟨last, later⟩ := ih areOthers draft
            exact ⟨last, .other named found later⟩
        | some field =>
            cases present : field.isRead draft with
            | true => exact ⟨none, .repeated named found present⟩
            | false =>
                obtain ⟨answer, reads⟩ :=
                  regular field (List.mem_of_find?_eq_some found) draft part.2 isValue
                cases answer with
                | none => exact ⟨none, .refused named found present reads⟩
                | some next =>
                    obtain ⟨last, later⟩ := ih areOthers next
                    exact ⟨last, .field named found present reads later⟩
      · exact ⟨none, .nameless refused⟩

/-! ## Records as lists -/

/-- The end of a list is found exactly where the list can be closed. -/
theorem closeList_of_end {first : Bool}
    (ends : Reader.nextItem first full = .ok (false, ']' :: rest)) :
    Reader.closeList full = .ok rest := by
  rw [Reader.nextItem] at ends
  rw [Reader.closeList]
  split at ends
  · cases ends
  · next left start =>
      obtain rfl : left = rest := by simpa using ends
      rw [start]
      rfl
  · split at ends
    · cases ends
    · split at ends
      · split at ends <;> cases ends
      · cases ends

/-- A list is not closed where another item follows. -/
theorem closeList_of_item {first : Bool} {others : List Char}
    (follows : Reader.nextItem first full = .ok (true, others)) :
    ∃ error, Reader.closeList full = .error error := by
  rw [Reader.nextItem] at follows
  rw [Reader.closeList]
  split
  · exact ⟨_, rfl⟩
  · next left start =>
      rw [start] at follows
      cases follows
  · split <;> exact ⟨_, rfl⟩
  · exact ⟨_, rfl⟩

/-- Build a record and close its list. -/
def finishList (build : σ → Except Error α) (read : σ × List Char) :
    Except Error (α × List Char) := do
  let value ← build read.1
  return (value, ← Reader.closeList read.2)

/-- A record in a list is built once the list is closed. -/
theorem finishList_of_close {build : σ → Except Error α} {draft : σ} {left : List Char}
    (closes : Reader.closeList left = .ok rest) :
    (finishList build (draft, left)).toOption = (build draft).toOption.map (·, rest) := by
  cases built : build draft <;>
    simp [finishList, built, closes, bind, Except.bind, pure, Except.pure, Except.toOption]

/-- A record in a list that is not closed is not built. -/
theorem finishList_of_error {build : σ → Except Error α} {draft : σ} {left : List Char}
    (closes : ∃ error, Reader.closeList left = .error error) :
    (finishList build (draft, left)).toOption = none := by
  obtain ⟨error, closes⟩ := closes
  cases built : build draft <;> simp [finishList, built, closes, bind, Except.bind, Except.toOption]

/-- A list is read into the fields of a record, or refused, the same way in all places. -/
theorem exists_positions {fields : List (Field σ)}
    (regular : ∀ field ∈ fields, ∀ draft, Regular limit (field.read draft))
    (build : σ → Except Error α) {items : List (List Char)}
    (values : ∀ item ∈ items, Form.IsValue item) (draft : σ) :
    ∃ answer : Option α, ∀ first full rest,
      Walks Reader.nextItem ']' limit rest first full items →
        (Record.readPositions first draft fields full >>= finishList build).toOption =
          answer.map (·, rest) := by
  induction fields generalizing items draft with
  | nil =>
      cases items with
      | nil =>
          refine ⟨(build draft).toOption, fun first full rest walks => ?_⟩
          cases walks with
          | closed ends => exact finishList_of_close (closeList_of_end ends)
      | cons item items =>
          refine ⟨none, fun first full rest walks => ?_⟩
          cases walks with
          | item follows => exact finishList_of_error (closeList_of_item follows)
  | cons field fields ih =>
      obtain ⟨regularField, regularOthers⟩ := List.forall_mem_cons.mp regular
      cases items with
      | nil =>
          refine ⟨(build draft).toOption, fun first full rest walks => ?_⟩
          cases walks with
          | closed ends =>
              have closes := @finishList_of_close _ _ _ build draft _ (closeList_eq rest)
              simpa [Record.readPositions, ends, bind, Except.bind, pure, Except.pure] using closes
      | cons item items =>
          obtain ⟨isValue, areValues⟩ := List.forall_mem_cons.mp values
          obtain ⟨read, reads⟩ := regularField draft item isValue
          cases read with
          | none =>
              refine ⟨none, fun first full rest walks => ?_⟩
              cases walks with
              | item follows delimited room later =>
                  obtain ⟨error, failed⟩ :=
                    reads.refused (isValue.opens.skipSpace_append _) delimited room
                  simp [Record.readPositions, follows, failed, bind, Except.bind]
          | some next =>
              obtain ⟨answer, others⟩ := ih regularOthers areValues next
              refine ⟨answer, fun first full rest walks => ?_⟩
              cases walks with
              | item follows delimited room later =>
                  have succeeded := reads.read (isValue.opens.skipSpace_append _) delimited room
                  have answers := others _ _ _ later
                  simpa [Record.readPositions, follows, succeeded, bind, Except.bind] using answers

/-- No record is read where neither a brace nor a bracket stands. -/
theorem Record.read_refuses (record : Record σ α) {c : Char} {others : List Char}
    (start : skipSpace full = c :: others) (object : c ≠ '\x7b') (list : c ≠ '[') :
    record.read limit full = .error (wrongType (.record record.title) (c :: others)) := by
  simp only [Record.read, start]
  split
  case h_1 empty => cases empty
  case h_2 bracket => exact absurd (List.cons.inj bracket).1 object
  case h_3 bracket => exact absurd (List.cons.inj bracket).1 list
  case h_4 => rfl

/-- The reader of a record is regular if the readers of its fields are. -/
theorem Record.regular {record : Record σ α}
    (regular : ∀ field ∈ record.fields, ∀ draft, Regular limit (field.read draft)) :
    Regular limit (record.read limit) := by
  intro text isValue
  obtain ⟨c, others, rfl, shape⟩ := isValue.cases_first
  by_cases object : c = '\x7b'
  · obtain ⟨parts, areMembers, listed⟩ : ∃ parts, AreMembers parts ∧
        c :: others ∈ Form.object parts := by
      subst object
      simpa [AreMembers] using shape
    obtain ⟨last, follows⟩ := Record.exists_follows regular areMembers record.draft
    exact ⟨_, follows.answers areMembers listed⟩
  by_cases list : c = '['
  · obtain ⟨items, values, listed⟩ : ∃ items, (∀ item ∈ items, Form.IsValue item) ∧
        c :: others ∈ Form.array items := by
      subst list
      simpa using shape
    obtain ⟨answer, positions⟩ := exists_positions regular
      (record.build fun position _ => .invalidLength position record.title record.fields.length)
      values record.draft
    obtain ⟨inside, same, walks⟩ :=
      (finds_nextItem fun item inside => (values item inside).opens).walks limit listed
    refine ⟨answer, fun full rest start _ room => ?_⟩
    obtain ⟨-, walks⟩ := walks room
    have read := positions true _ rest (walks rest)
    rw [same, List.cons_append] at start
    simp only [Record.read, start]
    exact read
  · exact ⟨none, answers_none fun full rest start _ => ⟨_, record.read_refuses start object list⟩⟩

/-- A field adds the answer of its reader to the draft. -/
theorem Answers.field {name : String} {alternative : Option String} {get : σ → Option α}
    {set : σ → α → σ} {reader : Reader α} {answer : Option α}
    (answers : Answers limit reader text answer) (draft : σ) :
    Answers limit ((Field.of name alternative get set reader).read draft) text
      (answer.map (set draft)) := by
  intro full rest start delimited room
  have read := answers full rest start delimited room
  cases answer with
  | none =>
      obtain ⟨error, failed⟩ := Checks.toOption_eq_none.mp read
      simp [Field.of, failed, bind, Except.bind]
  | some value =>
      have succeeded := Checks.toOption_eq_some.mp read
      simp [Field.of, succeeded, bind, Except.bind, pure, Except.pure, Except.toOption]

/-- A field is regular if its reader is. -/
theorem Regular.field {name : String} {alternative : Option String} {get : σ → Option α}
    {set : σ → α → σ} {reader : Reader α} (regular : Regular limit reader) (draft : σ) :
    Regular limit ((Field.of name alternative get set reader).read draft) := by
  intro text isValue
  obtain ⟨answer, answers⟩ := regular text isValue
  exact ⟨_, answers.field draft⟩

end TapeMachine.Json
