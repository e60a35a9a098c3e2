import TapeMachine.Load
import TapeMachine.Proofs.Document.Presentation
import TapeMachine.Proofs.Machine.NormalForm

/-!
# Documents survive their JSON form

Reading the written JSON form of a document gives the document back: every text with all its
characters, the tables with their order and their repeated keys, and the two fields that are left
out when they are empty. Machines survive as well, because compiling the normal document of a
machine gives the machine.
-/

namespace TapeMachine

open Json

variable {layout : Layout}

namespace ActionRecord

/-- A printed action presents the action. -/
theorem renderAt_toJson_mem (proper : layout.Proper) (depth : Nat) (action : ActionRecord) :
    renderAt layout depth action.toJson ∈ action.presentations := by
  refine renderAt_record_mem proper depth (presents_printed proper (depth + 1) ?_)
  simp only [fieldForms, List.forall_mem_cons]
  exact ⟨.inl ⟨_, rfl, renderAt_strings_mem proper _ _⟩,
    .inl ⟨_, rfl, renderAt_strings_mem proper _ _⟩, .inl ⟨_, rfl, renderString_mem _⟩, by simp⟩

end ActionRecord

namespace Document

/-- The members of a document when none is left out. -/
def allMembers (document : Document) : List (String × Json) :=
  [ ("name", .string document.name),
    ("description", .string document.description),
    ("states", .strings document.states),
    ("inputAlphabet", .strings document.inputAlphabet),
    ("tapeAlphabet", .strings document.tapeAlphabet),
    ("tapeCount", .number document.tapeCount),
    ("initialState", .string document.initialState),
    ("acceptingStates", .strings document.acceptingStates),
    ("blank", .string document.blank),
    ("wildcard", .string document.wildcard),
    ("unchanged", .string document.unchanged),
    ("transitions", .object (document.transitions.map fun entry =>
      (entry.1, .object (entry.2.map fun rule => (rule.1, rule.2.toJson)))))]

/-- The members of a document, all of them printed, present its fields. -/
theorem presents_allMembers (proper : layout.Proper) (depth : Nat) (document : Document) :
    Form.Presents document.fieldForms (printed layout depth document.allMembers) := by
  have strings (values : List String) :
      renderAt layout depth (.strings values) ∈ Form.list Form.string values :=
    renderAt_strings_mem proper depth values
  have rules (entry : String × Table ActionRecord) :
      renderAt layout (depth + 1)
        (.object (entry.2.map fun rule => (rule.1, rule.2.toJson))) ∈
        Form.table ActionRecord.presentations entry.2 := by
    refine renderAt_table_mem proper (depth + 1) ?_
    rw [List.forall₂_map_left_iff, List.forall₂_same]
    exact fun rule _ => ⟨rfl, rule.2.renderAt_toJson_mem proper _⟩
  have transitions : renderAt layout depth (.object (document.transitions.map fun entry =>
      (entry.1, .object (entry.2.map fun rule => (rule.1, rule.2.toJson))))) ∈
      Form.table (Form.table ActionRecord.presentations) document.transitions := by
    refine renderAt_table_mem proper depth ?_
    rw [List.forall₂_map_left_iff, List.forall₂_same]
    exact fun entry _ => ⟨rfl, rules entry⟩
  refine presents_printed proper depth ?_
  simp only [fieldForms, List.forall_mem_cons]
  exact ⟨.inl ⟨_, rfl, renderString_mem _⟩, .inl ⟨_, rfl, renderString_mem _⟩,
    .inl ⟨_, rfl, strings _⟩, .inl ⟨_, rfl, strings _⟩, .inl ⟨_, rfl, strings _⟩,
    .inl ⟨_, rfl, rfl⟩, .inl ⟨_, rfl, renderString_mem _⟩, .inl ⟨_, rfl, strings _⟩,
    .inl ⟨_, rfl, renderString_mem _⟩, .inl ⟨_, rfl, renderString_mem _⟩,
    .inl ⟨_, rfl, renderString_mem _⟩, .inl ⟨_, rfl, transitions⟩, by simp⟩

/-- An optional member is left out exactly where its text is empty. -/
theorem optionalMember_cases (key value : String) :
    value = "" ∧ optionalMember key value = [] ∨
      optionalMember key value = [(key, .string value)] := by
  by_cases empty : value = ""
  · exact .inl ⟨empty, if_pos empty⟩
  · exact .inr (if_neg empty)

/-- A printed document presents the document. -/
theorem renderAt_toJson_mem (proper : layout.Proper) (depth : Nat) (document : Document) :
    renderAt layout depth document.toJson ∈ document.presentations := by
  have all := document.presents_allMembers proper (depth + 1)
  have nameDefault (empty : document.name = "") :
      ∀ field ∈ document.fieldForms, "name" ∈ field.names → field.isDefault := by
    simp [fieldForms, empty]
  have descriptionDefault (empty : document.description = "") :
      ∀ field ∈ document.fieldForms, "description" ∈ field.names → field.isDefault := by
    simp [fieldForms, empty]
  refine renderAt_record_mem proper depth ?_
  rcases optionalMember_cases "name" document.name with ⟨noName, name⟩ | name
  · rcases optionalMember_cases "description" document.description with ⟨empty, none⟩ | some
    · rw [name, none]
      exact (all.eraseIdx 1 rfl (descriptionDefault empty)).eraseIdx 0 rfl (nameDefault noName)
    · rw [name, some]
      exact all.eraseIdx 0 rfl (nameDefault noName)
  · rcases optionalMember_cases "description" document.description with ⟨empty, none⟩ | some
    · rw [name, none]
      exact all.eraseIdx 1 rfl (descriptionDefault empty)
    · rw [name, some]
      exact all

/-- A document whose number of tapes has 64 bits is read back from its JSON form. -/
theorem ofJson_render_toJson (proper : layout.Proper) (document : Document)
    (fits : document.tapeCount < Text.wordLimit) :
    ofJson (document.toJson.render layout) = .ok document :=
  readText_of_takes (fun _ => document.takes_presentations fits)
    (render_mem (document.renderAt_toJson_mem proper 0))

end Document

/-- Documents and machines survive the written JSON form. The text of a document is read back to the
same document, with every character, every repeated key and the order of all entries; and every
machine that was compiled from a document is read back to the same machine. -/
theorem json_form_restores_documents_and_machines :
    (∀ document : Document, document.tapeCount < Text.wordLimit →
      Document.ofJson (document.toJson.render .pretty) = .ok document) ∧
    (∀ (document : Document) (machine : Machine), document.tapeCount < Text.wordLimit →
      Machine.ofDocument document = .ok machine →
      Format.json.read (Format.json.encode machine) = .ok machine) := by
  constructor
  · intro document fits
    exact document.ofJson_render_toJson Layout.proper_pretty fits
  · intro document machine fits accepted
    have wellFormed := Machine.wellFormed_of_ofDocument accepted
    have small : machine.toDocument.tapeCount < Text.wordLimit := by
      change machine.tapeCount < Text.wordLimit
      rwa [Machine.tapeCount_of_ofDocument accepted]
    have read := machine.toDocument.ofJson_render_toJson Layout.proper_pretty small
    simp [Format.read, Format.readDocument, Format.encode, read, wellFormed.ofDocument_toDocument]

/-- The document with awkward symbols, with every table of rules written twice. -/
def Document.awkwardTwice : Document :=
  { awkward with transitions := awkward.transitions ++ awkward.transitions }

/-- A document with two tables for one state survives its JSON form, and so does the machine with
awkward symbols. -/
theorem json_form_restores_awkward :
    Document.awkwardTwice.tapeCount < Text.wordLimit ∧
      Document.ofJson (Document.awkwardTwice.toJson.render .pretty) = .ok .awkwardTwice ∧
      Machine.ofDocument .awkward = .ok .awkward ∧
      Format.json.read (Format.json.encode .awkward) = .ok .awkward :=
  ⟨by decide, json_form_restores_documents_and_machines.1 .awkwardTwice (by decide),
    Document.ofDocument_awkward, json_form_restores_documents_and_machines.2 .awkward .awkward
      (by decide) Document.ofDocument_awkward⟩

end TapeMachine
