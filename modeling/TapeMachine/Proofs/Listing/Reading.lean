import TapeMachine.Proofs.Checks
import TapeMachine.Proofs.Listing.Layout

/-!
# Every layout is read

Each phrase of the grammar reads back what a text says, for every text in the language of its
layouts. A token ends by itself or where something follows that cannot continue it (`ReadBack`), and
a repetition reads a concatenation of parts, one for each item (`Repeatable`).
-/

namespace TapeMachine.Listing

open Phrase
open Layout (StartsToken EndsLine startsToken_of_isBareSymbol)

variable {limit : Nat}

/-! ## Repetition -/

section Repetition

variable {α β : Type} {phrase : Phrase α} {forms : β → Language Char}
  {follows : List Char → Prop} {holds : β → α → Prop} {bound : Nat}

/-- What a repetition needs of an item: each of its forms is read wherever it may stand, and another
item may stand before it, as long as the text is not longer than `bound`. Only the space after an
item may be read with it. -/
structure Repeatable (bound : Nat) (phrase : Phrase α) (forms : β → Language Char)
    (follows : List Char → Prop) (holds : β → α → Prop) (item : β) : Prop where
  reads : ∀ form ∈ forms item, ∀ rest, follows rest → (form ++ rest).length ≤ bound →
    phrase.Yields (dropFiller (form ++ rest)) fun value left =>
      holds item value ∧ dropFiller left = dropFiller rest
  admits : ∀ form ∈ forms item, ∀ rest, (form ++ rest).length ≤ bound → follows (form ++ rest)
  nonempty : [] ∉ forms item

/-- A concatenation has at least one character for each of its parts. -/
theorem length_le_of_mem_prod {items : List β} (nonempty : ∀ item ∈ items, [] ∉ forms item)
    {text : List Char} (member : text ∈ (items.map forms).prod) :
    items.length ≤ text.length := by
  induction items generalizing text with
  | nil => simp
  | cons item items ih =>
      obtain ⟨form, isForm, others, isOthers, rfl⟩ := Language.mem_mul.mp member
      have positive : 0 < form.length := List.length_pos_of_ne_nil fun empty =>
        nonempty item List.mem_cons_self (empty ▸ isForm)
      have later := ih (fun other inside => nonempty other (List.mem_cons_of_mem _ inside)) isOthers
      rw [List.length_append, List.length_cons]
      omega

/-- What holds before each item is read: the forms of the items that remain stand next, up to
space. -/
structure ItemsLeft (bound : Nat) (phrase : Phrase α) (forms : β → Language Char)
    (follows : List Char → Prop) (holds : β → α → Prop) (final : List Char) (items : List β)
    (text : List Char) : Prop where
  repeatable : ∀ item ∈ items, Repeatable bound phrase forms follows holds item
  parts : ∃ form ∈ (items.map forms).prod,
    dropFiller text = dropFiller (form ++ final) ∧ (form ++ final).length ≤ bound

/-- Whatever may follow the last item may follow all of them. -/
theorem follows_prod_append {items : List β}
    (repeatable : ∀ item ∈ items, Repeatable bound phrase forms follows holds item)
    {form final : List Char} (member : form ∈ (items.map forms).prod)
    (room : (form ++ final).length ≤ bound) (last : follows final) : follows (form ++ final) := by
  cases items with
  | nil =>
      obtain rfl : form = [] := member
      exact last
  | cons item items =>
      obtain ⟨first, isFirst, others, -, rfl⟩ := Language.mem_mul.mp member
      rw [List.append_assoc] at room ⊢
      exact (repeatable item List.mem_cons_self).admits first isFirst _ room

namespace ItemsLeft

variable {final text : List Char} {item : β} {items : List β}

/-- There are no more items than characters, since each item has one at least. -/
theorem length_le (left : ItemsLeft bound phrase forms follows holds final items text) :
    items.length ≤ bound := by
  obtain ⟨form, member, -, room⟩ := left.parts
  have counted := length_le_of_mem_prod
    (fun item inside => (left.repeatable item inside).nonempty) member
  rw [List.length_append] at room
  omega

/-- The next item is read. -/
theorem yields (left : ItemsLeft bound phrase forms follows holds final (item :: items) text)
    (last : follows final) :
    phrase.Yields (dropFiller text) fun value rest =>
      holds item value ∧ ItemsLeft bound phrase forms follows holds final items rest := by
  obtain ⟨_, member, same, room⟩ := left.parts
  obtain ⟨form, isForm, others, isOthers, rfl⟩ := Language.mem_mul.mp member
  rw [List.append_assoc] at same room
  have later : ∀ other ∈ items, Repeatable bound phrase forms follows holds other :=
    fun other inside => left.repeatable other (List.mem_cons_of_mem _ inside)
  have fits : (others ++ final).length ≤ bound := by
    rw [List.length_append] at room
    omega
  have next := follows_prod_append later isOthers fits last
  rw [same]
  refine ((left.repeatable item List.mem_cons_self).reads form isForm _ next room).mono ?_
  rintro value rest ⟨holdsItem, reached⟩
  exact ⟨holdsItem, later, others, isOthers, reached, fits⟩

/-- A repetition reads all items, up to something that is no item. -/
theorem yields_many (left : ItemsLeft bound phrase forms follows holds final items text)
    (few : items.length ≤ limit) (last : follows final)
    (stops : phrase.Refuses (dropFiller final)) :
    (many limit phrase).Yields text fun values rest =>
      List.Forall₂ holds items values ∧ dropFiller rest = dropFiller final := by
  have stop : ∀ text, ItemsLeft bound phrase forms follows holds final [] text →
      phrase.Refuses (dropFiller text) := by
    rintro text ⟨-, _, rfl, same, -⟩
    rw [same]
    exact stops
  refine (Phrase.yields_many (fun _ _ _ left => left.yields last) stop left few).mono ?_
  rintro values rest ⟨related, -, _, rfl, reached, -⟩
  exact ⟨related, reached⟩

/-- A repetition of at least one item. -/
theorem yields_many1 (left : ItemsLeft bound phrase forms follows holds final items text)
    (someItem : items ≠ []) (few : items.length ≤ limit) (last : follows final)
    (stops : phrase.Refuses (dropFiller final)) :
    (many1 limit phrase).Yields (dropFiller text) fun values rest =>
      List.Forall₂ holds items values ∧ dropFiller rest = dropFiller final := by
  obtain ⟨item, items, rfl⟩ := List.exists_cons_of_ne_nil someItem
  rw [List.length_cons] at few
  refine (left.yields last).bind ?_
  rintro value rest ⟨holdsItem, ⟨later, form, member, reached, room⟩⟩
  rw [← dropFiller_dropFiller] at reached
  have next : ItemsLeft bound phrase forms follows holds final items (dropFiller rest) :=
    ⟨later, form, member, reached, room⟩
  refine Yields.after_filler ((next.yields_many (by omega) last stops).bind ?_)
  rintro values rest ⟨related, ended⟩
  exact yields_pure ⟨.cons holdsItem related, ended⟩

end ItemsLeft

end Repetition

/-! ## Tokens -/

/-- Every form is read as a good value before whatever may follow it, with nothing to skip before
it. -/
structure ReadBack {α : Type} (phrase : Phrase α) (good : α → Prop) (forms : Language Char)
    (follows : List Char → Prop) : Prop where
  reads : ∀ form ∈ forms, ∀ rest, follows rest →
    phrase.Yields (form ++ rest) fun value left => good value ∧ left = rest
  starts : ∀ form ∈ forms, StartsToken form

section ReadBack

variable {α β : Type} {phrase : Phrase α} {good : α → Prop} {forms : Language Char}
  {follows : List Char → Prop}

/-- A token that is read back before many texts is read back before fewer. -/
theorem ReadBack.mono {fewer : List Char → Prop} (readBack : ReadBack phrase good forms follows)
    (implies : ∀ rest, fewer rest → follows rest) : ReadBack phrase good forms fewer :=
  ⟨fun form member rest holds => readBack.reads form member rest (implies rest holds),
    readBack.starts⟩

/-- A named token is read back as the token is. -/
theorem ReadBack.named (readBack : ReadBack phrase good forms follows) :
    ReadBack phrase.named good forms follows :=
  ⟨fun form member rest holds => (readBack.reads form member rest holds).named, readBack.starts⟩

/-- The place of a token does not matter to what it says. -/
theorem ReadBack.withPlace (readBack : ReadBack phrase good forms follows) :
    ReadBack (withPlace phrase) (fun value => good value.item) forms follows :=
  ⟨fun form member rest holds => (readBack.reads form member rest holds).withPlace,
    readBack.starts⟩

/-- A token before another phrase. -/
theorem ReadBack.bind (readBack : ReadBack phrase good forms follows) {form rest : List Char}
    (member : form ∈ forms) (holds : follows rest) {second : α → Phrase β}
    {post : β → List Char → Prop}
    (continues : ∀ value, good value → (second value).Yields rest post) :
    (phrase >>= second).Yields (form ++ rest) post := by
  refine (readBack.reads form member rest holds).bind ?_
  rintro value _ ⟨isGood, rfl⟩
  exact continues value isGood

end ReadBack

/-- A mark with any space around it, before another phrase. -/
theorem Phrase.Yields.after_spaced {α : Type} {phrase : Phrase α} {post : α → List Char → Prop}
    {mark : List Char} (opens : StartsToken mark) {form : List Char}
    (member : form ∈ Layout.spaced mark) {rest : List Char} (starts : StartsToken rest)
    (yields : phrase.Yields rest post) :
    (do filler; literal mark; filler; phrase : Phrase α).Yields (form ++ rest) post := by
  obtain ⟨before, isBefore, behind, isBehind, rfl⟩ := Layout.exists_of_mem_spaced member
  rw [List.append_assoc, List.append_assoc]
  refine Yields.after_filler ?_
  rw [Layout.dropFiller_gap_append isBefore, (opens.append _).dropFiller_eq]
  refine Yields.after_literal mark (Yields.after_filler ?_)
  rw [Layout.dropFiller_gap_append isBehind, starts.dropFiller_eq]
  exact yields

/-- A symbol is read back with and without quotes, whatever follows it. -/
theorem readBack_symbol (c : Char) :
    ReadBack symbol (Eq c) (Layout.symbol c) fun _ => True where
  reads := by
    rintro form (rfl | ⟨bare, rfl⟩) rest -
    · exact Yields.named fun offset => ⟨c, _, rfl, rfl, rfl⟩
    · refine (reads_bareSymbol bare rest).mono ?_
      rintro _ _ ⟨rfl, rfl⟩
      exact ⟨rfl, rfl⟩
  starts := by
    rintro form (rfl | ⟨bare, rfl⟩)
    · exact ⟨'\'', _, rfl, by decide, by decide⟩
    · exact startsToken_of_isBareSymbol bare []

/-- The token of a movement. -/
def Spells (direction : Direction) (token : Char) : Prop :=
  Direction.ofToken? token.toString = some direction

/-- A movement is read back from its letter and from its sign. -/
theorem readBack_move (direction : Direction) :
    ReadBack move (Spells direction) (Layout.move direction) fun _ => True where
  reads := by
    intro form member rest _
    cases direction <;> rcases member with rfl | rfl <;>
      exact Yields.named fun offset => ⟨_, _, rfl, rfl, rfl⟩
  starts := by
    intro form member
    cases direction <;> rcases member with rfl | rfl <;>
      exact ⟨_, _, rfl, by decide, by decide⟩

/-- A plain name is read back where nothing continues it. -/
theorem readBack_stateName {name : String} (plain : PlainName name) :
    ReadBack stateName (Eq name) (Layout.name name) Bounded where
  reads := by
    rintro _ rfl rest bounded
    have nonempty : name.toList ≠ [] := by simpa using plain.1
    have taken : (run isNameChar).Reads (name.toList ++ rest) name.toList rest :=
      yields_run nonempty plain.nameChars bounded ⟨rfl, rfl⟩
    refine Yields.named (taken.bind ?_)
    rintro _ _ ⟨rfl, rfl⟩
    exact yields_pure ⟨String.ofList_toList.symm, rfl⟩
  starts := by
    rintro _ rfl
    obtain ⟨c, others, chars, nameChar⟩ := plain.exists_cons
    rw [chars]
    exact startsToken_of_isBareSymbol (isBareSymbol_of_isNameChar nameChar) others

/-- A numeral is read back where nothing continues it. -/
theorem readBack_count {digits : List Char} (nonempty : digits ≠ [])
    (isDigit : ∀ c ∈ digits, c.isDigit) : ReadBack count (Eq digits) {digits} Bounded where
  reads := by
    rintro _ rfl rest bounded
    have ends : ∀ c ∈ rest.head?, c.isDigit = false := by
      intro c first
      by_contra digit
      have continued := isNameChar_of_isDigit (by simpa using digit)
      rw [bounded c first] at continued
      cases continued
    exact (yields_run nonempty isDigit ends ⟨rfl, rfl⟩).named
  starts := by
    rintro _ rfl
    obtain ⟨c, others, rfl⟩ := List.exists_cons_of_ne_nil nonempty
    have nameChar := isNameChar_of_isDigit (isDigit c List.mem_cons_self)
    exact startsToken_of_isBareSymbol (isBareSymbol_of_isNameChar nameChar) others

/-! ## Lists -/

section Lists

variable {α β : Type} {item : Phrase α} {forms : β → Language Char} {holds : β → α → Prop}
  {follows : List Char → Prop}

/-- An item after a comma has the comma at least. -/
theorem nil_notMem_spaced_mul (value : β) : [] ∉ Layout.spaced [','] * forms value := by
  intro member
  obtain ⟨_, isComma, spelled, -, empty⟩ := Language.mem_mul.mp member
  obtain ⟨before, -, behind, -, rfl⟩ := Layout.exists_of_mem_spaced isComma
  simp at empty

/-- An item after a comma. -/
theorem repeatable_item {bound : Nat} {value : β}
    (readBack : ReadBack item (holds value) (forms value) Bounded) :
    Repeatable bound (after "," item) (fun other => Layout.spaced [','] * forms other) Bounded
      holds value := by
  have comma : StartsToken [','] := ⟨',', [], rfl, by decide, by decide⟩
  have parts : ∀ form ∈ Layout.spaced [','] * forms value, ∃ before ∈ Layout.gap,
      ∃ behind ∈ Layout.gap, ∃ spelled ∈ forms value,
      form = before ++ ([','] ++ (behind ++ spelled)) := by
    intro form member
    obtain ⟨_, isComma, spelled, isSpelled, rfl⟩ := Language.mem_mul.mp member
    obtain ⟨before, isBefore, behind, isBehind, rfl⟩ := Layout.exists_of_mem_spaced isComma
    exact ⟨before, isBefore, behind, isBehind, spelled, isSpelled, by simp⟩
  refine ⟨fun form member rest bounded _ => ?_, fun form member rest _ => ?_,
    nil_notMem_spaced_mul value⟩
  · obtain ⟨before, isBefore, behind, isBehind, spelled, isSpelled, rfl⟩ := parts form member
    simp only [List.append_assoc]
    rw [Layout.dropFiller_gap_append isBefore, (comma.append _).dropFiller_eq]
    refine Yields.after_literal [','] (Yields.after_filler ?_)
    rw [Layout.dropFiller_gap_append isBehind,
      ((readBack.starts spelled isSpelled).append rest).dropFiller_eq]
    refine (readBack.reads spelled isSpelled rest bounded).mono ?_
    rintro _ _ ⟨isGood, rfl⟩
    exact ⟨isGood, rfl⟩
  · obtain ⟨before, isBefore, behind, -, spelled, -, rfl⟩ := parts form member
    rw [List.append_assoc]
    exact Layout.bounded_gap_append isBefore (bounded_cons (by decide) _)

/-- At least one item, separated by commas, up to a closing bracket. -/
theorem yields_commaSeparated {values : List β} (someValue : values ≠ [])
    (readBack : ∀ value ∈ values, ReadBack item (holds value) (forms value) Bounded)
    (room : values.length ≤ limit) {text space : List Char}
    (member : text ∈ Layout.items forms values) (isGap : space ∈ Layout.gap) (rest : List Char) :
    (commaSeparated limit item).Yields (text ++ (space ++ ']' :: rest)) fun taken left =>
      List.Forall₂ holds values taken ∧ dropFiller left = ']' :: rest := by
  obtain ⟨value, values, rfl⟩ := List.exists_cons_of_ne_nil someValue
  obtain ⟨form, isForm, others, isOthers, rfl⟩ := Language.mem_mul.mp member
  have first := readBack value List.mem_cons_self
  have bound := Nat.le_refl (others ++ (space ++ ']' :: rest)).length
  have later (other : β) (inside : other ∈ values) := @repeatable_item _ _ _ _ _
    (others ++ (space ++ ']' :: rest)).length _ (readBack other (List.mem_cons_of_mem _ inside))
  have bounded : Bounded (space ++ ']' :: rest) :=
    Layout.bounded_gap_append isGap (bounded_cons (by decide) rest)
  have closing : dropFiller (space ++ ']' :: rest) = ']' :: rest := by
    rw [Layout.dropFiller_gap_append isGap]
    exact dropFiller_cons (by decide) rest
  have stops : (after "," item).Refuses (dropFiller (space ++ ']' :: rest)) := by
    rw [closing]
    exact (refuses_literal_of_ne (by decide) _ _).bind
  rw [List.length_cons] at room
  rw [List.append_assoc]
  refine first.bind isForm (follows_prod_append later isOthers bound bounded) ?_
  intro firstTaken firstHolds
  refine Yields.after_filler ?_
  have left : ItemsLeft _ (after "," item) _ Bounded holds (space ++ ']' :: rest) values
      (dropFiller (others ++ (space ++ ']' :: rest))) :=
    ⟨later, others, isOthers, dropFiller_dropFiller _, bound⟩
  refine (left.yields_many (by omega) bounded stops).bind ?_
  rintro taken left ⟨related, reached⟩
  exact yields_pure ⟨.cons firstHolds related, reached.trans closing⟩

/-- Items between brackets are read back whatever follows them, if the items are. -/
theorem readBack_bracketed {values : List β} {phrase : Phrase (List α)}
    (yields : ∀ text ∈ Layout.items forms values, ∀ space ∈ Layout.gap, ∀ rest,
      phrase.Yields (dropFiller (text ++ (space ++ ']' :: rest))) fun taken left =>
        List.Forall₂ holds values taken ∧ dropFiller left = ']' :: rest) :
    ReadBack (bracketed phrase) (List.Forall₂ holds values) (Layout.bracketed forms values)
      fun _ => True where
  reads := by
    rintro form member rest -
    obtain ⟨before, isBefore, text, isText, behind, isBehind, rfl⟩ :=
      Layout.exists_of_mem_bracketed member
    simp only [List.append_assoc]
    refine Yields.after_literal ['['] (Yields.after_filler ?_)
    rw [Layout.dropFiller_gap_append isBefore]
    refine (yields text isText behind isBehind rest).bind ?_
    rintro taken left ⟨related, reached⟩
    refine Yields.after_filler ?_
    rw [reached]
    exact Yields.after_literal [']'] (yields_pure ⟨related, rfl⟩)
  starts := by
    intro form member
    obtain ⟨before, -, text, -, behind, -, rfl⟩ := Layout.exists_of_mem_bracketed member
    exact ⟨'[', _, rfl, by decide, by decide⟩

/-- Items start with the first of them. -/
theorem startsToken_items {values : List β} (someValue : values ≠ [])
    (readBack : ∀ value ∈ values, ReadBack item (holds value) (forms value) Bounded)
    {text : List Char} (member : text ∈ Layout.items forms values) : StartsToken text := by
  obtain ⟨value, values, rfl⟩ := List.exists_cons_of_ne_nil someValue
  obtain ⟨form, isForm, others, -, rfl⟩ := Language.mem_mul.mp member
  exact ((readBack value List.mem_cons_self).starts form isForm).append others

/-- A list that is not empty is read back. -/
theorem readBack_list {values : List β} (someValue : values ≠ [])
    (readBack : ∀ value ∈ values, ReadBack item (holds value) (forms value) Bounded)
    (room : values.length ≤ limit) :
    ReadBack (bracketed (commaSeparated limit item)) (List.Forall₂ holds values)
      (Layout.bracketed forms values) fun _ => True := by
  refine readBack_bracketed fun text isText space isGap rest => ?_
  rw [((startsToken_items someValue readBack isText).append _).dropFiller_eq]
  exact yields_commaSeparated someValue readBack room isText isGap rest

/-- A list that may be empty is read back. -/
theorem readBack_optionalList {values : List β} (closed : ∀ rest, item.Refuses (']' :: rest))
    (readBack : ∀ value ∈ values, ReadBack item (holds value) (forms value) Bounded)
    (room : values.length ≤ limit) :
    ReadBack (bracketed (optional (commaSeparated limit item) [])) (List.Forall₂ holds values)
      (Layout.bracketed forms values) fun _ => True := by
  refine readBack_bracketed fun text isText space isGap rest => ?_
  by_cases none : values = []
  · subst none
    obtain rfl : text = [] := isText
    rw [List.nil_append, Layout.dropFiller_gap_append isGap, dropFiller_cons (by decide)]
    exact Refuses.orElse_yields (closed rest).bind
      (yields_pure ⟨.nil, dropFiller_cons (by decide) rest⟩)
  · rw [((startsToken_items none readBack isText).append _).dropFiller_eq]
    exact (yields_commaSeparated none readBack room isText isGap rest).orElse

/-- A list in brackets is not read where another character stands first. -/
theorem refuses_bracketed {phrase : Phrase (List α)} {c : Char} (other : c ≠ '[')
    (rest : List Char) : (bracketed phrase).Refuses (c :: rest) :=
  (refuses_literal_of_ne other _ _).bind

/-- A list is read back from its brackets or from its only value. -/
theorem readBack_oneOrList {brackets : Phrase (List α)} {values : List β}
    (readBrackets : ReadBack brackets (List.Forall₂ holds values) (Layout.bracketed forms values)
      fun _ => True)
    (refuses : ∀ c rest, c ≠ '[' → brackets.Refuses (c :: rest))
    (readBack : ∀ value ∈ values, ReadBack item (holds value) (forms value) follows)
    (bare : ∀ value ∈ values, ∀ form ∈ forms value, form.head? ≠ some '[') :
    ReadBack (brackets.orElse do return [← item]) (List.Forall₂ holds values)
      (Layout.list forms values) follows where
  reads := by
    rintro form (isBracketed | ⟨value, rfl, isForm⟩) rest mayFollow
    · exact (readBrackets.reads form isBracketed rest trivial).orElse
    · have single := readBack value List.mem_cons_self
      obtain ⟨c, others, rfl, -⟩ := single.starts form isForm
      have other : c ≠ '[' := by
        rintro rfl
        exact bare value List.mem_cons_self _ isForm rfl
      exact Refuses.orElse_yields (refuses c _ other) (single.bind isForm mayFollow
        fun taken isGood => yields_pure ⟨.cons isGood .nil, rfl⟩)
  starts := by
    rintro form (isBracketed | ⟨value, rfl, isForm⟩)
    · exact readBrackets.starts form isBracketed
    · exact (readBack value List.mem_cons_self).starts form isForm

/-- A list has at least one character for each of its values. -/
theorem length_le_of_mem_bracketed {values : List β} {form : List Char}
    (member : form ∈ Layout.bracketed forms values) : values.length ≤ form.length := by
  obtain ⟨before, -, text, isText, behind, -, rfl⟩ := Layout.exists_of_mem_bracketed member
  cases values with
  | nil => simp
  | cons value values =>
      obtain ⟨first, -, others, isOthers, rfl⟩ := Language.mem_mul.mp isText
      have counted := length_le_of_mem_prod (fun value _ => nil_notMem_spaced_mul value) isOthers
      simp only [List.length_append, List.length_cons]
      omega

/-- A list with or without brackets has at least one character for each of its values. -/
theorem length_le_of_mem_list {values : List β}
    (readBack : ∀ value ∈ values, ReadBack item (holds value) (forms value) follows)
    {form : List Char} (member : form ∈ Layout.list forms values) :
    values.length ≤ form.length := by
  rcases member with isBracketed | ⟨value, rfl, isForm⟩
  · exact length_le_of_mem_bracketed isBracketed
  · exact List.length_pos_of_ne_nil ((readBack value List.mem_cons_self).starts form isForm).ne_nil

end Lists

/-- Symbols between brackets are read back. -/
theorem readBack_symbolList {values : List Char} (room : values.length ≤ limit) :
    ReadBack (symbolList limit) (Eq values) (Layout.bracketed Layout.symbol values)
      fun _ => True := by
  rw [← List.forall₂_eq_eq_eq]
  exact (readBack_optionalList (fun rest => refuses_symbol (by decide) (by decide) rest)
    (fun value _ => (readBack_symbol value).mono fun _ _ => trivial) room).named

/-- Symbols are read back from their brackets, or one symbol from itself. -/
theorem readBack_symbols {values : List Char} (room : values.length ≤ limit) :
    ReadBack (symbols limit) (Eq values) (Layout.list Layout.symbol values) fun _ => True := by
  have brackets := @readBack_symbolList limit values room
  rw [← List.forall₂_eq_eq_eq] at brackets ⊢
  refine readBack_oneOrList brackets (fun c rest other => (refuses_bracketed other rest).named)
    (fun c _ => readBack_symbol c) ?_
  rintro c - form (rfl | ⟨bare, rfl⟩)
  · simp
  · rintro ⟨⟩
    exact absurd bare (by decide)

/-- Movements are read as tokens that spell them. -/
theorem readBack_moves {values : List Direction} (someMove : values ≠ [])
    (room : values.length ≤ limit) :
    ReadBack (moves limit)
      (List.Forall₂ (fun direction token => Spells direction token.item) values)
      (Layout.list Layout.move values) fun _ => True := by
  refine readBack_oneOrList
    (readBack_list someMove
      (fun value _ => (readBack_move value).withPlace.mono fun _ _ => trivial) room).named
    (fun c rest other => (refuses_bracketed other rest).named)
    (fun value _ => (readBack_move value).withPlace) ?_
  intro direction _ form member
  cases direction <;> rcases member with rfl | rfl <;> decide

/-- Names are read back from their brackets, or one name from itself. -/
theorem readBack_stateNames {names : List String} (plain : ∀ name ∈ names, PlainName name)
    (room : names.length ≤ limit) :
    ReadBack (stateNames limit) (Eq names) (Layout.list Layout.name names) Bounded := by
  rw [← List.forall₂_eq_eq_eq]
  refine (readBack_oneOrList
    (readBack_optionalList (fun _ => refuses_stateName (by rintro c ⟨⟩; decide))
      (fun name member => readBack_stateName (plain name member)) room)
    (fun c rest other => refuses_bracketed other rest)
    (fun name member => readBack_stateName (plain name member)) ?_).named
  rintro name member _ rfl first
  exact absurd ((plain name member).nameChars '[' (List.mem_of_head? first)) (by decide)

end TapeMachine.Listing
