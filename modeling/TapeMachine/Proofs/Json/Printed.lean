import Mathlib.Tactic.SplitIfs
import TapeMachine.Json.Value
import TapeMachine.Proofs.Json.Flaws

/-!
# Printed values are forms

What the printer writes is one of the forms of what it was given, for every layout that adds nothing
but white space. What holds of all forms therefore holds of printed texts.
-/

namespace TapeMachine.Json

variable {α : Type} {layout : Layout}

/-! ## Layouts -/

/-- A layout that adds nothing but white space. -/
structure Layout.Proper (layout : Layout) : Prop where
  lineBreak : ∀ depth, ∀ c ∈ layout.lineBreak depth, isSpace c
  colon : ∃ space, layout.colon = ':' :: space ∧ ∀ c ∈ space, isSpace c

/-- The layout with line breaks puts white space only where it may stand. -/
theorem Layout.proper_pretty : Layout.pretty.Proper where
  lineBreak depth c member := by
    rcases List.mem_cons.mp member with rfl | indent
    · rfl
    · rw [List.eq_of_mem_replicate indent]
      rfl
  colon := ⟨[' '], rfl, by simp [isSpace]⟩

/-! ## Strings -/

/-- White space is space. -/
theorem mem_space_of_isSpace {before : List Char} (spaces : ∀ c ∈ before, isSpace c) :
    before ∈ Form.space := by
  intro c inside
  have space := spaces c inside
  simp only [isSpace, Bool.or_eq_true, beq_iff_eq] at space
  rcases space with ((rfl | rfl) | rfl) | rfl <;> decide

/-- Nothing is space. -/
theorem nil_mem_space : [] ∈ Form.space :=
  mem_space_of_isSpace (by simp)

/-- A printed digit is the hexadecimal digit of its value. -/
theorem isHexDigit_hexDigit (value : Nat) : Form.IsHexDigit (hexDigit value) (value % 0x10) := by
  have digits : ∀ small < 16, "0123456789abcdef".toList[small]? = some (Nat.digitChar small) := by
    decide
  exact .inl (digits (value % 16) (Nat.mod_lt value (by decide)))

/-- A printed character is one of its forms. -/
theorem escapeChar_mem (c : Char) : escapeChar c ∈ Form.character c := by
  have lettered (letter : Char) (known : (letter, c) ∈ Form.letters) :
      ['\\', letter] ∈ Form.character c :=
    .inl (.inr ⟨letter, known, rfl⟩)
  unfold escapeChar
  split_ifs with quote backslash backspace feed newline carriage tab control
  · exact lettered '"' (by subst quote; decide)
  · exact lettered '\\' (by subst backslash; decide)
  · exact lettered 'b' (by subst backspace; decide)
  · exact lettered 'f' (by subst feed; decide)
  · exact lettered 'n' (by subst newline; decide)
  · exact lettered 'r' (by subst carriage; decide)
  · exact lettered 't' (by subst tab; decide)
  · have zero : Form.IsHexDigit '0' 0 := .inl rfl
    have small : c.toNat < 0x10000 := by omega
    have none : c.toNat / 0x1000 = 0 ∧ c.toNat / 0x100 % 0x10 = 0 := by omega
    refine .inr ?_
    rw [Form.coded, if_pos small]
    exact ⟨_, _, _, _, rfl, none.1 ▸ zero, none.2 ▸ zero, isHexDigit_hexDigit _,
      isHexDigit_hexDigit _⟩
  · exact .inl (.inl ⟨rfl, quote, backslash, Nat.not_lt.mp control⟩)

/-- A printed string is one of its forms. -/
theorem renderString_mem (value : String) : renderString value ∈ Form.string value := by
  have body (chars : List Char) : chars.flatMap escapeChar ∈ (chars.map Form.character).prod := by
    induction chars with
    | nil => exact rfl
    | cons c chars ih =>
        rw [List.flatMap_cons, List.map_cons, List.prod_cons]
        exact Language.append_mem_mul (escapeChar_mem c) ih
  exact ⟨_, ⟨_, rfl, _, body value.toList, rfl⟩, _, rfl, rfl⟩

/-! ## Brackets -/

/-- The items behind the first one lead up to the end of the list. -/
theorem renderItems_mem_rest (proper : layout.Proper) (depth : Nat) {ending : List Char}
    (isEnding : ending ∈ Form.rest ']' []) (items : List Json) :
    renderItems layout depth items ++ ending ∈
      Form.rest ']' (items.map (renderAt layout depth)) := by
  induction items with
  | nil => exact isEnding
  | cons item items ih =>
      have isBreak := mem_space_of_isSpace (proper.lineBreak depth)
      refine Form.mem_rest_cons.mpr ⟨[], nil_mem_space, _, isBreak, _, ih, ?_⟩
      simp [renderItems]

/-- A printed list is a list of its printed items. -/
theorem renderAt_array_mem (proper : layout.Proper) (depth : Nat) (items : List Json) :
    renderAt layout depth (.array items) ∈
      Form.array (items.map (renderAt layout (depth + 1))) := by
  cases items with
  | nil => exact Form.mem_bracket_nil.mpr ⟨[], nil_mem_space, rfl⟩
  | cons item items =>
      have isBreak := mem_space_of_isSpace (proper.lineBreak (depth + 1))
      have isEnding : layout.lineBreak depth ++ [']'] ∈ Form.rest ']' [] :=
        Form.mem_rest_nil.mpr ⟨_, mem_space_of_isSpace (proper.lineBreak depth), rfl⟩
      have isRest := renderItems_mem_rest proper (depth + 1) isEnding items
      refine Form.mem_bracket_cons.mpr ⟨_, isBreak, _, isRest, ?_⟩
      simp [renderAt]

/-- The text of a member. -/
def renderMember (layout : Layout) (depth : Nat) (member : String × Json) : List Char :=
  renderString member.1 ++ layout.colon ++ renderAt layout depth member.2

/-- A printed member is a form of the member. -/
theorem renderMember_mem (proper : layout.Proper) (depth : Nat) (member : String × Json) :
    renderMember layout depth member ∈
      Form.member (renderString member.1, renderAt layout depth member.2) := by
  obtain ⟨space, colon, spaces⟩ := proper.colon
  refine Form.mem_member.mpr ⟨[], nil_mem_space, space, mem_space_of_isSpace spaces, ?_⟩
  simp [renderMember, colon]

/-- Printed members are forms of the members after the first. -/
theorem renderMembers_mem_rest (proper : layout.Proper) (depth : Nat) {ending : List Char}
    (isEnding : ending ∈ Form.rest '\x7d' []) (members : List (String × Json)) :
    renderMembers layout depth members ++ ending ∈
      Form.rest '\x7d' (members.map (renderMember layout depth)) := by
  induction members with
  | nil => exact isEnding
  | cons member members ih =>
      have isBreak := mem_space_of_isSpace (proper.lineBreak depth)
      refine Form.mem_rest_cons.mpr ⟨[], nil_mem_space, _, isBreak, _, ih, ?_⟩
      simp [renderMembers, renderMember]

/-- A printed object is an object of its printed members. -/
theorem renderAt_object_mem (proper : layout.Proper) (depth : Nat)
    (members : List (String × Json)) :
    renderAt layout depth (.object members) ∈ Form.object (members.map fun member =>
      (renderString member.1, renderAt layout (depth + 1) member.2)) := by
  refine ⟨members.map (renderMember layout (depth + 1)), ?_, ?_⟩
  · rw [List.forall₂_map_left_iff, List.forall₂_map_right_iff, List.forall₂_same]
    exact fun member _ => renderMember_mem proper (depth + 1) member
  · cases members with
    | nil => exact Form.mem_bracket_nil.mpr ⟨[], nil_mem_space, rfl⟩
    | cons member members =>
        have isBreak := mem_space_of_isSpace (proper.lineBreak (depth + 1))
        have isEnding : layout.lineBreak depth ++ ['\x7d'] ∈ Form.rest '\x7d' [] :=
          Form.mem_rest_nil.mpr ⟨_, mem_space_of_isSpace (proper.lineBreak depth), rfl⟩
        have isRest := renderMembers_mem_rest proper (depth + 1) isEnding members
        refine Form.mem_bracket_cons.mpr ⟨_, isBreak, _, isRest, ?_⟩
        simp [renderAt, renderMember]

/-- Printed members are members if their printed values are values. -/
theorem areMembers_printed (depth : Nat) {members : List (String × Json)}
    (values : ∀ member ∈ members, Form.IsValue (renderAt layout depth member.2)) :
    AreMembers (members.map fun member =>
      (renderString member.1, renderAt layout depth member.2)) := by
  intro part isPart
  obtain ⟨member, inside, rfl⟩ := List.mem_map.mp isPart
  exact ⟨mem_anyString_of_mem_string (renderString_mem member.1), values member inside⟩

/-- Whatever is printed is a value. -/
theorem isValue_renderAt (proper : layout.Proper) (json : Json) (depth : Nat) :
    Form.IsValue (renderAt layout depth json) := by
  match json with
  | .null => exact .word (by simp [renderAt, Form.words])
  | .bool true => exact .word (by simp [renderAt, Form.words])
  | .bool false => exact .word (by simp [renderAt, Form.words])
  | .number value => exact .number (toDigits_mem_number value)
  | .string value => exact .string (mem_anyString_of_mem_string (renderString_mem value))
  | .array items =>
      refine .array ?_ (renderAt_array_mem proper depth items)
      intro text isText
      obtain ⟨item, inside, rfl⟩ := List.mem_map.mp isText
      exact isValue_renderAt proper item (depth + 1)
  | .object members =>
      refine (areMembers_printed (depth + 1) ?_).isValue (renderAt_object_mem proper depth members)
      intro member inside
      exact isValue_renderAt proper member.2 (depth + 1)
termination_by sizeOf json
decreasing_by
  · have smaller := List.sizeOf_lt_of_mem inside
    simp only [Json.array.sizeOf_spec]
    omega
  · have smaller := List.sizeOf_lt_of_mem inside
    obtain ⟨key, value⟩ := member
    simp only [Prod.mk.sizeOf_spec, Json.object.sizeOf_spec] at smaller ⊢
    omega

/-! ## Typed forms -/

/-- A printed list of strings is one of its forms. -/
theorem renderAt_strings_mem (proper : layout.Proper) (depth : Nat) (values : List String) :
    renderAt layout depth (.strings values) ∈ Form.list Form.string values := by
  refine ⟨_, ?_, renderAt_array_mem proper depth _⟩
  rw [List.map_map, List.forall₂_map_left_iff, List.forall₂_same]
  exact fun value _ => renderString_mem value

/-- A printed object is a form of a table if its members are forms of the entries. -/
theorem renderAt_table_mem (proper : layout.Proper) {form : α → Language Char} (depth : Nat)
    {members : List (String × Json)} {entries : Table α}
    (each : List.Forall₂ (fun member entry => member.1 = entry.1 ∧
      renderAt layout (depth + 1) member.2 ∈ form entry.2) members entries) :
    renderAt layout depth (.object members) ∈ Form.table form entries := by
  refine ⟨_, ?_, renderAt_object_mem proper depth members⟩
  rw [List.forall₂_map_left_iff]
  exact each.imp fun member entry both => ⟨both.1 ▸ renderString_mem member.1, both.2⟩

/-- The texts of members that are written at a depth. -/
def printed (layout : Layout) (depth : Nat) (members : List (String × Json)) : Table (List Char) :=
  members.map fun member => (member.1, renderAt layout depth member.2)

/-- Printed members present a record if they give each of its fields. -/
theorem presents_printed (proper : layout.Proper) (depth : Nat) {fields : List Form.FieldForm}
    {members : List (String × Json)}
    (each : ∀ field ∈ fields,
      (∃ member, (printed layout depth members).filter (·.1 ∈ field.names) = [member] ∧
        member.2 ∈ field.value) ∨
        field.isDefault ∧ ∀ member ∈ printed layout depth members, member.1 ∉ field.names) :
    Form.Presents fields (printed layout depth members) where
  each := each
  others member inside _ := by
    obtain ⟨json, -, rfl⟩ := List.mem_map.mp inside
    exact isValue_renderAt proper json.2 depth

/-- A printed object presents a record if its printed members do. -/
theorem renderAt_record_mem (proper : layout.Proper) (depth : Nat) {fields : List Form.FieldForm}
    {members : List (String × Json)}
    (presents : Form.Presents fields (printed layout (depth + 1) members)) :
    renderAt layout depth (.object members) ∈ Form.record fields := by
  refine ⟨_, presents, _, ?_, renderAt_object_mem proper depth members⟩
  rw [printed, List.forall₂_map_left_iff, List.forall₂_map_right_iff, List.forall₂_same]
  exact fun member _ => ⟨renderString_mem member.1, rfl⟩

/-- A printed key spells the name that was printed. -/
theorem spells_renderString {names : List String} {key : String} :
    Form.Spells names (renderString key) ↔ key ∈ names := by
  constructor
  · rintro ⟨name, isName, spelled⟩
    exact eq_of_mem_string (renderString_mem key) spelled ▸ isName
  · intro isName
    exact ⟨key, isName, renderString_mem key⟩

/-- An object whose members are flawed is printed as a flawed text. -/
theorem renderAt_flawed_mem (proper : layout.Proper) (depth : Nat)
    {known required : List (List String)} {members : List (String × Json)}
    (flawed : Form.Flawed known required (members.map fun member =>
      (renderString member.1, renderAt layout (depth + 1) member.2))) :
    renderAt layout depth (.object members) ∈ Form.flawed known required :=
  ⟨_, areMembers_printed (depth + 1) fun member _ => isValue_renderAt proper member.2 (depth + 1),
    flawed, renderAt_object_mem proper depth members⟩

/-- An object with a certain member is printed as a text that contains it. -/
theorem renderAt_containing_mem (proper : layout.Proper) (depth : Nat)
    {keys values : Language Char} {members : List (String × Json)} {member : String × Json}
    (inside : member ∈ members) (isKey : renderString member.1 ∈ keys)
    (isForm : renderAt layout (depth + 1) member.2 ∈ values) :
    renderAt layout depth (.object members) ∈ Form.containing keys values :=
  ⟨_, areMembers_printed (depth + 1) fun member _ => isValue_renderAt proper member.2 (depth + 1),
    ⟨_, List.mem_map_of_mem inside, isKey, isForm⟩, renderAt_object_mem proper depth members⟩

/-- A printed text has nothing around its value. -/
theorem render_mem {json : Json} {form : Language Char} (isForm : renderAt layout 0 json ∈ form) :
    (json.render layout).toList ∈ Form.space * form * Form.space := by
  refine ⟨_, ⟨[], nil_mem_space, _, isForm, rfl⟩, [], nil_mem_space, ?_⟩
  simp [render]

end TapeMachine.Json
