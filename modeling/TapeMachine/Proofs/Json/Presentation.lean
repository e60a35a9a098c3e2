import Mathlib.Data.List.Basic
import Mathlib.Logic.Function.Basic
import TapeMachine.Proofs.Json.Members

/-!
# Records and how they are presented

An object presents a record if it gives every field once, under one of its names, and leaves out
fields only where they have their default. The order of the members does not matter, nor do members
with other names. `Record.Presented.takes` says that a record is then read as it was meant, and
`readText_of_takes` that white space around the object does not matter either.
-/

namespace TapeMachine.Json

namespace Form

/-- How a field is written: its names, the forms of its value, and whether it may be left out. -/
structure FieldForm where
  names : List String
  value : Language Char
  isDefault : Prop

/-- Every field is given once, under one of its names, or left out where it has its default. What is
given under other names is any value. -/
structure Presents (fields : List FieldForm) (members : Table (List Char)) : Prop where
  each : ∀ field ∈ fields,
    (∃ member, members.filter (·.1 ∈ field.names) = [member] ∧ member.2 ∈ field.value) ∨
      field.isDefault ∧ ∀ member ∈ members, member.1 ∉ field.names
  others : ∀ member ∈ members, (∀ field ∈ fields, member.1 ∉ field.names) → IsValue member.2

/-- The objects that present the fields of a record. -/
def record (fields : List FieldForm) : Language Char :=
  {text | ∃ members, Presents fields members ∧ text ∈ table (fun value => {value}) members}

end Form

variable {α σ : Type} {limit : Nat} {text : List Char} {reader : Reader α} {record : Record σ α}

/-! ## Names -/

/-- All names of a field. -/
def Field.names (field : Field σ) : List String :=
  field.name :: field.alternative.toList

/-- A field answers to its names. -/
theorem Field.answersTo_iff {field : Field σ} {key : String} :
    field.answersTo key ↔ key ∈ field.names := by
  cases alternative : field.alternative with
  | none => simp [Field.answersTo, Field.names, alternative]
  | some other =>
      simp only [Field.answersTo, Field.names, alternative, Bool.or_eq_true, beq_iff_eq,
        Option.some.injEq, Option.toList_some, List.mem_cons, List.not_mem_nil, or_false]
      rw [eq_comm (a := other)]

/-- A value has one answer only. -/
theorem Answers.unique {first second : Option α} (answers : Answers limit reader text first)
    (others : Answers limit reader text second) (opens : Opens text)
    (room : text.length ≤ limit) : first = second := by
  have start : skipSpace text = text ++ [] := by
    simpa using opens.skipSpace_append []
  have ending : Delimited [] := by
    rintro c ⟨⟩
  have same := (answers text [] start ending room).symm.trans (others text [] start ending room)
  cases first <;> cases second <;> simp_all

/-- A text spells one string only. -/
theorem eq_of_mem_string {first second : String} (isFirst : text ∈ Form.string first)
    (isSecond : text ∈ Form.string second) : first = second := by
  have opens := opens_string (mem_anyString_of_mem_string isFirst)
  have reads : Answers text.length Reader.string text (some first) := answers_string isFirst
  exact Option.some.inj (reads.unique (answers_string isSecond) opens le_rfl)

/-- No name belongs to two fields. -/
def Record.Distinct (record : Record σ α) : Prop :=
  (record.fields.map Field.names).flatten.Nodup

/-- Fields of one name stand at one position. -/
theorem Record.Distinct.unique (distinct : record.Distinct) {first second : Field σ} {key : String}
    {index other : Nat} (position : record.fields[index]? = some first)
    (otherPosition : record.fields[other]? = some second) (named : key ∈ first.names)
    (otherNamed : key ∈ second.names) : index = other := by
  have apart : record.fields.Pairwise fun field later => List.Disjoint field.names later.names :=
    List.pairwise_map.mp (List.nodup_flatten.mp distinct).2
  obtain ⟨bound, rfl⟩ := List.getElem?_eq_some_iff.mp position
  obtain ⟨otherBound, rfl⟩ := List.getElem?_eq_some_iff.mp otherPosition
  rcases Nat.lt_trichotomy index other with before | same | after
  · exact absurd otherNamed (List.pairwise_iff_getElem.mp apart index other _ _ before named)
  · exact same
  · exact absurd named (List.pairwise_iff_getElem.mp apart other index _ _ after otherNamed)

/-- A field is found under each of its names. -/
theorem Record.Distinct.find?_eq (distinct : record.Distinct) {field : Field σ} {key : String}
    {index : Nat} (position : record.fields[index]? = some field) (named : key ∈ field.names) :
    record.fields.find? (·.answersTo key) = some field := by
  obtain ⟨bound, same⟩ := List.getElem?_eq_some_iff.mp position
  refine List.find?_eq_some_iff_getElem.mpr
    ⟨Field.answersTo_iff.mpr named, index, bound, same, fun earlier less => ?_⟩
  have listed : record.fields[earlier]? = some record.fields[earlier] :=
    List.getElem?_eq_getElem (less.trans bound)
  by_contra answers
  have otherNamed := Field.answersTo_iff.mp (by simpa using answers)
  have equal := distinct.unique listed position otherNamed named
  omega

/-- A field that is found for a key has that name and a position. -/
theorem Record.exists_of_find? {field : Field σ} {key : String}
    (found : record.fields.find? (·.answersTo key) = some field) :
    key ∈ field.names ∧ ∃ index : Nat, record.fields[index]? = some field := by
  obtain ⟨answers, index, bound, same, -⟩ := List.find?_eq_some_iff_getElem.mp found
  exact ⟨Field.answersTo_iff.mp answers, index, List.getElem?_eq_some_iff.mpr ⟨bound, same⟩⟩

/-! ## Presented records -/

/-- The drafts that hold what was seen of a record so far, together with how the fields of the
record are read into them. -/
structure Record.Presented (record : Record σ α) (limit : Nat) (forms : List Form.FieldForm)
    (drafts : (Nat → Bool) → σ) : Prop where
  names : record.fields.map Field.names = forms.map Form.FieldForm.names
  distinct : record.Distinct
  start : drafts (fun _ => false) = record.draft
  reads : ∀ seen, List.Forall₂ (fun (field : Field σ) (place : Form.FieldForm × Nat) =>
    field.isRead (drafts seen) = seen place.2 ∧ Takes limit (field.read (drafts seen))
      place.1.value (drafts (Function.update seen place.2 true))) record.fields forms.zipIdx

section Presented

variable {forms : List Form.FieldForm} {drafts : (Nat → Bool) → σ}

/-- The field that is written like this. -/
theorem Record.Presented.exists_field (presented : record.Presented limit forms drafts)
    {form : Form.FieldForm} {index : Nat} (position : forms[index]? = some form) :
    ∃ field, record.fields[index]? = some field ∧ field.names = form.names ∧
      ∀ seen, field.isRead (drafts seen) = seen index ∧ Takes limit (field.read (drafts seen))
        form.value (drafts (Function.update seen index true)) := by
  have named : (record.fields.map Field.names)[index]? = some form.names := by
    simp [presented.names, position]
  rw [List.getElem?_map] at named
  obtain ⟨field, listed, sameNames⟩ := Option.map_eq_some_iff.mp named
  refine ⟨field, listed, sameNames, fun seen => ?_⟩
  have placed : forms.zipIdx[index]? = some (form, index) := by
    simp [List.getElem?_zipIdx, position]
  obtain ⟨other, otherListed, reads⟩ :=
    Checks.exists_getElem?_of_forall₂ (presented.reads seen) placed
  obtain rfl : field = other := by simpa [listed] using otherListed
  exact reads

/-- A name that belongs to no form belongs to no field. -/
theorem Record.Presented.find?_eq_none (presented : record.Presented limit forms drafts)
    {key : String} (unknown : ∀ form ∈ forms, key ∉ form.names) :
    record.fields.find? (·.answersTo key) = none := by
  refine List.find?_eq_none.mpr fun field listed answers => ?_
  have named : field.names ∈ forms.map Form.FieldForm.names :=
    presented.names ▸ List.mem_map_of_mem listed
  obtain ⟨form, isForm, same⟩ := List.mem_map.mp named
  exact unknown form isForm (same ▸ Field.answersTo_iff.mp answers)

/-- The members of a presented record are followed to a draft that has all fields they give. -/
theorem Record.Presented.follows (presented : record.Presented limit forms drafts)
    {members : Table (List Char)} {parts : List (List Char × List Char)} (seen : Nat → Bool)
    (spelled : List.Forall₂ (fun part member => part.1 ∈ Form.string member.1 ∧ part.2 = member.2)
      parts members)
    (given : ∀ member ∈ members, ∀ form ∈ forms, member.1 ∈ form.names → member.2 ∈ form.value)
    (single : members.Pairwise fun member later =>
      ∀ form ∈ forms, member.1 ∈ form.names → later.1 ∉ form.names)
    (fresh : ∀ member ∈ members, ∀ (index : Nat) form, forms[index]? = some form →
      member.1 ∈ form.names → seen index = false) :
    ∃ last, record.Follows limit (drafts seen) parts (some (drafts last)) ∧
      (∀ index, seen index = true → last index = true) ∧
      ∀ member ∈ members, ∀ (index : Nat) form, forms[index]? = some form →
        member.1 ∈ form.names → last index = true := by
  induction spelled generalizing seen with
  | nil => exact ⟨seen, .done _, fun _ before => before, by simp⟩
  | @cons part member parts members spelling others ih =>
      obtain ⟨givenHere, givenLater⟩ := List.forall_mem_cons.mp given
      obtain ⟨singleHere, singleLater⟩ := List.pairwise_cons.mp single
      obtain ⟨freshHere, freshLater⟩ := List.forall_mem_cons.mp fresh
      by_cases known : ∃ (index : Nat) (form : _), forms[index]? = some form ∧ member.1 ∈ form.names
      · obtain ⟨index, form, position, named⟩ := known
        have listed := List.mem_of_getElem? position
        obtain ⟨field, fieldPosition, sameNames, reads⟩ := presented.exists_field position
        obtain ⟨marked, takes⟩ := reads seen
        rw [freshHere index form position named] at marked
        have stillFresh : ∀ later ∈ members, ∀ (other : Nat) otherForm,
            forms[other]? = some otherForm → later.1 ∈ otherForm.names →
              Function.update seen index true other = false := by
          intro later inside other otherForm otherPosition otherNamed
          by_cases same : other = index
          · subst same
            obtain rfl : form = otherForm := by simpa [position] using otherPosition
            exact absurd otherNamed (singleHere later inside form listed named)
          · rw [Function.update_of_ne same]
            exact freshLater later inside other otherForm otherPosition otherNamed
        obtain ⟨last, follows, keeps, reached⟩ := ih _ givenLater singleLater stillFresh
        have found := presented.distinct.find?_eq fieldPosition (sameNames ▸ named)
        have read := (takes _ (givenHere form listed named)).2
        rw [← spelling.2] at read
        refine ⟨last, .field spelling.1 found marked read follows, ?_, ?_⟩
        · intro other before
          by_cases same : other = index
          · exact keeps other (by rw [same, Function.update_self])
          · exact keeps other (by rw [Function.update_of_ne same, before])
        · refine List.forall_mem_cons.mpr ⟨?_, reached⟩
          intro other otherForm otherPosition otherNamed
          obtain ⟨otherField, otherFieldPosition, otherNames, -⟩ :=
            presented.exists_field otherPosition
          obtain rfl := presented.distinct.unique fieldPosition otherFieldPosition
            (sameNames ▸ named) (otherNames ▸ otherNamed)
          exact keeps index (Function.update_self index true seen)
      · have unknown : ∀ form ∈ forms, member.1 ∉ form.names := by
          intro form listed named
          obtain ⟨index, position⟩ := List.mem_iff_getElem?.mp listed
          exact known ⟨index, form, position, named⟩
        obtain ⟨last, follows, keeps, reached⟩ := ih seen givenLater singleLater freshLater
        refine ⟨last, .other spelling.1 (presented.find?_eq_none unknown) follows, keeps, ?_⟩
        refine List.forall_mem_cons.mpr ⟨?_, reached⟩
        intro index form position named
        exact absurd ⟨index, form, position, named⟩ known

/-- A member that presents a field has one of the forms of its value. -/
theorem Form.Presents.given {members : Table (List Char)} (presents : Form.Presents forms members) :
    ∀ member ∈ members, ∀ form ∈ forms, member.1 ∈ form.names → member.2 ∈ form.value := by
  intro member inside form listed named
  rcases presents.each form listed with ⟨only, given, isForm⟩ | ⟨-, absent⟩
  · have found : member ∈ members.filter (·.1 ∈ form.names) :=
      List.mem_filter.mpr ⟨inside, by simpa using named⟩
    rw [given, List.mem_singleton] at found
    exact found ▸ isForm
  · exact absurd named (absent member inside)

/-- No two members present one field. -/
theorem Form.Presents.single {members : Table (List Char)}
    (presents : Form.Presents forms members) :
    members.Pairwise fun member later =>
      ∀ form ∈ forms, member.1 ∈ form.names → later.1 ∉ form.names := by
  have once (form : Form.FieldForm) (listed : form ∈ forms) :
      members.Pairwise fun member later => member.1 ∈ form.names → later.1 ∉ form.names := by
    have few : (members.filter (·.1 ∈ form.names)).Pairwise fun _ _ => False := by
      rcases presents.each form listed with ⟨only, given, -⟩ | ⟨-, absent⟩
      · rw [given]
        exact List.pairwise_singleton _ _
      · rw [List.filter_eq_nil_iff.mpr fun member inside => by simpa using absent member inside]
        exact List.Pairwise.nil
    simpa [List.pairwise_filter] using few
  rw [List.pairwise_iff_getElem]
  intro index later bound laterBound before form listed
  exact List.pairwise_iff_getElem.mp (once form listed) index later bound laterBound before

/-- A member may be left out if its field has its default. -/
theorem Form.Presents.eraseIdx {members : Table (List Char)} {member : String × List Char}
    (presents : Form.Presents forms members) (index : Nat)
    (position : members[index]? = some member)
    (isDefault : ∀ field ∈ forms, member.1 ∈ field.names → field.isDefault) :
    Form.Presents forms (members.eraseIdx index) := by
  refine ⟨fun field listed => ?_, fun other inside =>
    presents.others other (List.mem_of_mem_eraseIdx inside)⟩
  obtain ⟨bound, rfl⟩ := List.getElem?_eq_some_iff.mp position
  have split : members = members.take index ++ members[index] :: members.drop (index + 1) := by
    rw [List.getElem_cons_drop, List.take_append_drop]
  have given := presents.each field listed
  rw [List.eraseIdx_eq_take_drop_succ]
  generalize members.take index = before, members.drop (index + 1) = behind,
    members[index] = member at split isDefault ⊢
  subst split
  by_cases named : member.1 ∈ field.names
  · refine .inr ⟨isDefault field listed named, ?_⟩
    rcases given with ⟨only, given, -⟩ | ⟨-, absent⟩
    · have alone : (∀ other ∈ before, other.1 ∉ field.names) ∧ member = only ∧
          ∀ other ∈ behind, other.1 ∉ field.names := by
        simpa [List.filter_append, List.filter_cons, named, List.append_eq_singleton_iff]
          using given
      exact List.forall_mem_append.mpr ⟨alone.1, alone.2.2⟩
    · exact absurd named (absent member (by simp))
  · simpa [List.filter_append, List.filter_cons, named, or_imp, forall_and] using given

/-- What is given of a presented record is a value, under known names and under others. -/
theorem Form.Presents.isValue {members : Table (List Char)} (presents : Form.Presents forms members)
    (presented : record.Presented limit forms drafts) :
    ∀ member ∈ members, Form.IsValue member.2 := by
  intro member inside
  by_cases known : ∃ form ∈ forms, member.1 ∈ form.names
  · obtain ⟨form, listed, named⟩ := known
    obtain ⟨index, position⟩ := List.mem_iff_getElem?.mp listed
    obtain ⟨field, -, -, reads⟩ := presented.exists_field position
    exact ((reads fun _ => false).2 _ (presents.given member inside form listed named)).1
  · refine presents.others member inside fun form listed named => ?_
    exact known ⟨form, listed, named⟩

/-- A record is taken from the objects that present it. -/
theorem Record.Presented.takes (presented : record.Presented limit forms drafts) {value : α}
    (built : ∀ seen : Nat → Bool,
      (∀ (index : Nat) form, forms[index]? = some form → seen index = true ∨ form.isDefault) →
      record.build (fun _ name => .missingField name) (drafts seen) = .ok value) :
    Takes limit (record.read limit) (Form.record forms) value := by
  rintro text ⟨members, presents, parts, spelled, listed⟩
  have areMembers : AreMembers parts := by
    intro part inside
    obtain ⟨member, isMember, isKey, same⟩ := Checks.exists_mem_of_forall₂ spelled.flip inside
    have isValue := presents.isValue presented member isMember
    exact ⟨mem_anyString_of_mem_string isKey, (show part.2 = member.2 from same) ▸ isValue⟩
  obtain ⟨last, follows, -, reached⟩ := presented.follows (fun _ => false) spelled presents.given
    presents.single fun _ _ _ _ _ _ => rfl
  have complete : ∀ (index : Nat) form, forms[index]? = some form →
      last index = true ∨ form.isDefault := by
    intro index form position
    rcases presents.each form (List.mem_of_getElem? position) with ⟨only, given, -⟩ | ⟨omitted, -⟩
    · obtain ⟨isMember, named⟩ := List.mem_filter.mp (given ▸ List.mem_singleton_self only)
      exact .inl (reached only isMember index form position (by simpa using named))
    · exact .inr omitted
  refine ⟨areMembers.isValue listed, ?_⟩
  rw [presented.start] at follows
  have answers := follows.answers areMembers listed
  rwa [Option.bind_some, built last complete, Except.toOption] at answers

end Presented

/-- A field is taken from the forms of its value. -/
theorem Takes.field {β : Type} {name : String} {alternative : Option String} {get : σ → Option β}
    {set : σ → β → σ} {part : Reader β} {form : Language Char} {value : β} {draft next : σ}
    (takes : Takes limit part form value) (same : set draft value = next) :
    Takes limit ((Field.of name alternative get set part).read draft) form next := by
  intro text isForm
  obtain ⟨isValue, reads⟩ := takes text isForm
  exact ⟨isValue, same ▸ reads.field draft⟩

/-! ## Whole texts -/

section Whole

variable {whole : Nat → Reader α} {form : Language Char} {source : String}

/-- A whole text is read where its value is, with white space around it. -/
theorem exists_of_mem_surrounded (isText : source.toList ∈ Form.space * form * Form.space) :
    ∃ text ∈ form, ∃ after ∈ Form.space, text.length ≤ source.toList.length ∧
      (Opens text → skipSpace source.toList = text ++ after) := by
  obtain ⟨_, ⟨before, isBefore, text, isForm, rfl⟩, after, isAfter, same⟩ := isText
  refine ⟨text, isForm, after, isAfter, ?_, fun opens => ?_⟩
  · simp [← same]
    omega
  · rw [← same]
    simpa using opens.skipSpace_eq isBefore after

/-- Space at the end of a text is skipped. -/
theorem skipSpace_of_mem_space {after : List Char} (isAfter : after ∈ Form.space) :
    skipSpace after = [] := by
  simpa [skipSpace] using skipSpace_space_append isAfter []

/-- A number may end before space. -/
theorem delimited_of_mem_space {after : List Char} (isAfter : after ∈ Form.space) :
    Delimited after := by
  have ending : Delimited [] := by
    rintro c ⟨⟩
  simpa using Delimited.space_append isAfter ending

/-- A value that is taken from a text is what the whole text is read as. -/
theorem readText_of_takes {value : α} (takes : ∀ limit, Takes limit (whole limit) form value)
    (isText : source.toList ∈ Form.space * form * Form.space) :
    readText whole source = .ok value := by
  obtain ⟨text, isForm, after, isAfter, room, start⟩ := exists_of_mem_surrounded isText
  obtain ⟨isValue, reads⟩ := takes source.toList.length text isForm
  have read := reads.read (start isValue.opens) (delimited_of_mem_space isAfter) room
  simp [readText, read, skipSpace_of_mem_space isAfter, bind, Except.bind]

end Whole

end TapeMachine.Json
