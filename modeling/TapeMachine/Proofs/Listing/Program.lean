import TapeMachine.Proofs.Listing.Reading

/-!
# Programs are read from every layout

What headers, rules, blocks and whole listings say is read back from every text in the language of
their layouts, without the places of the parts. What a listing can say is the predicate `Writable`
of its parts.
-/

namespace TapeMachine.Listing

open Phrase
open Layout (StartsToken EndsLine)

variable {limit : Nat}

/-! ## Headers -/

/-- The headers that can be written. -/
def Header.Writable : Header → Prop
  | .name chars =>
    (∃ c others, chars = c :: others ∧ isFiller c = false) ∧ ∀ c ∈ chars, isTextChar c
  | .tapes digits => digits ≠ [] ∧ ∀ c ∈ digits, c.isDigit
  | .states names => ∀ name ∈ names, PlainName name
  | .start state => PlainName state
  | .accept names => ∀ name ∈ names, PlainName name
  | _ => True

/-- A header without white space at the ends of a name, which is all that is used of it. -/
def Header.trimmed : Header → Header
  | .name text => .name (Text.trim text)
  | header => header

/-- A header is read if its value is. -/
theorem yields_keyword {α : Type} {phrase : Phrase α} {make : α → Header} {word keyword : String}
    (spelled : word.toList = keyword.toList ++ [':']) {space form rest : List Char}
    (isGap : space ∈ Layout.gap) (starts : StartsToken form)
    {post : Header → List Char → Prop}
    (yields : phrase.Yields (form ++ rest) fun value left => post (make value) left) :
    (named (after word do return make (← phrase))).Yields
      (keyword.toList ++ [':'] ++ (space ++ (form ++ rest))) post := by
  rw [← spelled]
  refine Yields.named (Yields.after_literal word.toList (Yields.after_filler ?_))
  rw [Layout.dropFiller_gap_append isGap, (starts.append rest).dropFiller_eq]
  exact yields.bind fun value left holds => yields_pure holds

/-- A header whose value is a token or a list is read back from its keyword on. -/
theorem yields_keyword_of_readBack {α : Type} {phrase : Phrase α} {make : α → Header}
    {word keyword : String} (spelled : word.toList = keyword.toList ++ [':']) {value : α}
    {forms : Language Char} {follows : List Char → Prop}
    (readBack : ReadBack phrase (Eq value) forms follows) {space form rest : List Char}
    (isGap : space ∈ Layout.gap) (member : form ∈ forms) (holds : follows rest) :
    (named (after word do return make (← phrase))).Yields
      (keyword.toList ++ [':'] ++ (space ++ (form ++ rest))) fun header left =>
        header.trimmed = (make value).trimmed ∧ dropFiller left = dropFiller rest := by
  refine yields_keyword spelled isGap (readBack.starts form member) ?_
  refine (readBack.reads form member rest holds).mono ?_
  rintro _ _ ⟨rfl, rfl⟩
  exact ⟨rfl, rfl⟩

/-- A header is not read where another keyword stands. -/
theorem refuses_keyword {α : Type} {phrase : Phrase α} {word : String} {text : List Char}
    (different : ¬ word.toList <+: text) : (named (after word phrase)).Refuses text :=
  (refuses_literal different).bind.named

/-- What is skipped between tokens is white space. -/
theorem isBlank_of_isFiller {c : Char} (filler : isFiller c) : Text.isBlank c := by
  simp only [isFiller, Bool.or_eq_true, beq_iff_eq] at filler
  rcases filler with rfl | rfl <;> decide

/-- Spaces and tabs may stand in the name of a machine. -/
theorem isTextChar_of_isFiller {c : Char} (filler : isFiller c) : isTextChar c := by
  simp only [isFiller, Bool.or_eq_true, beq_iff_eq] at filler
  rcases filler with rfl | rfl <;> decide

/-- The name of a machine is read with the space that follows it. -/
theorem yields_text {chars rest : List Char} (nonempty : chars ≠ [])
    (textChars : ∀ c ∈ chars, isTextChar c) (ends : EndsLine rest) :
    text.Yields (chars ++ rest) fun taken left =>
      Text.trim taken = Text.trim chars ∧ dropFiller left = dropFiller rest := by
  obtain ⟨space, isGap, others, rfl, stops⟩ := ends
  have all : ∀ c ∈ chars ++ space, isTextChar c := by
    intro c inside
    rcases List.mem_append.mp inside with first | later
    · exact textChars c first
    · exact isTextChar_of_isFiller (Layout.isFiller_of_mem_gap isGap later)
  have blank : ∀ c ∈ space, Text.isBlank c :=
    fun c inside => isBlank_of_isFiller (Layout.isFiller_of_mem_gap isGap inside)
  rw [← List.append_assoc]
  refine Yields.named (yields_run (by simp [nonempty]) all stops ⟨Text.trim_append blank chars, ?_⟩)
  rw [Layout.dropFiller_gap_append isGap]

/-- A header is read back from each of its layouts, up to white space at the ends of a name. -/
theorem Header.Writable.yields {header : Header} (writable : header.Writable) {form : List Char}
    (member : form ∈ Layout.header header) (room : form.length ≤ limit) {rest : List Char}
    (ends : EndsLine rest) :
    (Listing.header limit).Yields (form ++ rest) fun value left =>
      value.trimmed = header.trimmed ∧ dropFiller left = dropFiller rest := by
  obtain ⟨_, isKeyword, value, isValue, rfl⟩ := Language.mem_mul.mp member
  obtain ⟨_, rfl, space, isGap, rfl⟩ := Language.mem_mul.mp isKeyword
  simp only [List.length_append] at room
  have bounded := ends.bounded
  rw [List.append_assoc, List.append_assoc]
  -- The phrases before the one with the keyword of the header refuse, as many as are skipped here.
  cases header with
  | name chars =>
      simp only [Header.keyword]
      obtain ⟨⟨c, others, rfl, visible⟩, textChars⟩ := writable
      obtain rfl : value = c :: others := isValue
      have mark : c ≠ '#' ∧ isLineEnd c = false := by
        have first := textChars c List.mem_cons_self
        simp only [isTextChar, Bool.not_eq_true', Bool.or_eq_false_iff, beq_eq_false_iff_ne] at first
        exact ⟨first.2, first.1⟩
      have starts : StartsToken (c :: others) :=
        ⟨c, others, rfl, by simp [opensToken, visible, mark], mark.2⟩
      refine (yields_keyword rfl isGap starts ?_).orElse
      refine (yields_text (by simp) textChars ends).mono ?_
      rintro taken left ⟨same, reached⟩
      exact ⟨by rw [Header.trimmed, Header.trimmed, same], reached⟩
  | tapes digits =>
      simp only [Header.keyword]
      have readBack := readBack_count writable.1 writable.2
      iterate 1 refine Refuses.orElse_yields (refuses_keyword (by simp)) ?_
      exact (yields_keyword_of_readBack rfl readBack isGap isValue bounded).orElse
  | blank c =>
      simp only [Header.keyword]
      iterate 2 refine Refuses.orElse_yields (refuses_keyword (by simp)) ?_
      exact (yields_keyword_of_readBack rfl (readBack_symbol c) isGap isValue trivial).orElse
  | wildcard c =>
      simp only [Header.keyword]
      iterate 3 refine Refuses.orElse_yields (refuses_keyword (by simp)) ?_
      exact (yields_keyword_of_readBack rfl (readBack_symbol c) isGap isValue trivial).orElse
  | states names =>
      simp only [Header.keyword]
      have few := length_le_of_mem_list (fun name inside => readBack_stateName (writable name inside))
        isValue
      have readBack := @readBack_stateNames limit names writable (by omega)
      iterate 4 refine Refuses.orElse_yields (refuses_keyword (by simp)) ?_
      exact (yields_keyword_of_readBack rfl readBack isGap isValue bounded).orElse
  | input values =>
      simp only [Header.keyword]
      have few := length_le_of_mem_bracketed isValue
      have readBack := @readBack_symbolList limit values (by omega)
      iterate 5 refine Refuses.orElse_yields (refuses_keyword (by simp)) ?_
      exact (yields_keyword_of_readBack rfl readBack isGap isValue trivial).orElse
  | alphabet values =>
      simp only [Header.keyword]
      have few := length_le_of_mem_bracketed isValue
      have readBack := @readBack_symbolList limit values (by omega)
      iterate 6 refine Refuses.orElse_yields (refuses_keyword (by simp)) ?_
      exact (yields_keyword_of_readBack rfl readBack isGap isValue trivial).orElse
  | start state =>
      simp only [Header.keyword]
      have readBack := readBack_stateName writable
      iterate 7 refine Refuses.orElse_yields (refuses_keyword (by simp)) ?_
      exact (yields_keyword_of_readBack rfl readBack isGap isValue bounded).orElse
  | accept names =>
      simp only [Header.keyword]
      have few := length_le_of_mem_list (fun name inside => readBack_stateName (writable name inside))
        isValue
      have readBack := @readBack_stateNames limit names writable (by omega)
      iterate 8 refine Refuses.orElse_yields (refuses_keyword (by simp)) ?_
      exact (yields_keyword_of_readBack rfl readBack isGap isValue bounded).orElse

/-- Every header starts with its keyword. -/
theorem Header.startsToken {header : Header} {form : List Char}
    (member : form ∈ Layout.header header) : StartsToken form := by
  obtain ⟨_, isKeyword, value, -, rfl⟩ := Language.mem_mul.mp member
  obtain ⟨_, rfl, space, -, rfl⟩ := Language.mem_mul.mp isKeyword
  have letters : StartsToken header.keyword.toList := by
    cases header <;> simp [StartsToken, Header.keyword, opensToken, isFiller, isLineEnd]
  exact ((letters.append _).append _).append _

/-- A header line is read with all line ends that follow it. -/
theorem Header.Writable.repeatable {header : Header} (writable : header.Writable) :
    Repeatable limit (headerLine limit) (fun header => Layout.header header * Layout.lineBreak)
      StartsToken (fun header value => header.trimmed = value.item.trimmed) header := by
  refine ⟨fun form member rest starts room => ?_, fun form member rest _ => ?_, fun member => ?_⟩
  all_goals obtain ⟨spelled, isHeader, space, isBreak, same⟩ := Language.mem_mul.mp member
  · subst same
    have opens := (Header.startsToken isHeader).append (space ++ rest)
    rw [List.append_assoc] at room ⊢
    rw [opens.dropFiller_eq]
    obtain ⟨⟨c, others, reached, ends⟩, next⟩ := Layout.skip_lineBreak isBreak rest
    have shorter := length_dropFiller_le (space ++ rest)
    rw [reached, List.length_cons] at shorter
    rw [List.length_append] at room
    have following : nextToken others = dropFiller rest := by
      rw [← nextToken_cons_of_isLineEnd ends, ← reached, nextToken_dropFiller, next,
        starts.nextToken_eq, starts.dropFiller_eq]
    have ended := Layout.endsLine_lineBreak_append isBreak rest
    refine (writable.yields isHeader (by omega) ended).withPlace.bind ?_
    rintro value left ⟨sameHeader, consumed⟩
    refine Yields.after_filler ?_
    rw [consumed, reached]
    refine (yields_newlines ends (by omega)).bind ?_
    intro _ last atEnd
    exact yields_pure ⟨sameHeader.symm, atEnd.trans following⟩
  · subst same
    exact ((Header.startsToken isHeader).append space).append rest
  · obtain ⟨rfl, -⟩ := List.append_eq_nil_iff.mp same
    exact (Header.startsToken isHeader).ne_nil rfl

/-- The word before the rules is not the keyword of a header. -/
theorem refuses_header_rules (rest : List Char) :
    (header limit).Refuses ("rules:".toList ++ rest) := by
  apply refuses_choice
  simp only [List.mem_cons, List.not_mem_nil, or_false, forall_eq_or_imp, forall_eq]
  refine ⟨?_, ?_, ?_, ?_, ?_, ?_, ?_, ?_, ?_⟩ <;> exact refuses_keyword (by simp)

/-! ## Lines below -/

/-- Nothing is read on a line below if the next token of the text is refused. -/
theorem Phrase.Refuses.below {α : Type} {phrase : Phrase α} {text : List Char}
    (room : text.length ≤ limit) (refuses : phrase.Refuses (nextToken text)) :
    (Listing.onNextLine limit phrase).Refuses (dropFiller text) := by
  have shorter := length_dropFiller_le text
  rw [← nextToken_dropFiller] at refuses
  cases skipped : dropFiller text with
  | nil =>
      have none : newline.Refuses [] := refuses_newline (by simp)
      exact none.bind.bind.bind
  | cons c others =>
      rw [skipped] at refuses shorter
      rw [List.length_cons] at shorter
      by_cases ends : isLineEnd c
      · rw [nextToken_cons_of_isLineEnd ends] at refuses
        exact refuses.onNextLine ends (by omega)
      · have sameLine : newline.Refuses (c :: others) := by
          apply refuses_newline
          rintro d ⟨⟩
          simpa using ends
        exact sameLine.bind.bind.bind

/-- A phrase on a line of its own can be repeated over lines. -/
theorem repeatable_below {α β : Type} {phrase : Phrase α} {forms : β → Language Char}
    {follows : List Char → Prop} {holds : β → α → Prop} {item : β}
    (reads : ∀ form ∈ forms item, ∀ rest, follows rest → (form ++ rest).length ≤ limit →
      phrase.Yields (form ++ rest) fun value left =>
        holds item value ∧ dropFiller left = dropFiller rest)
    (starts : ∀ form ∈ forms item, StartsToken form)
    (admits : ∀ form ∈ forms item, ∀ space ∈ Layout.lineBreak, ∀ rest,
      (space ++ (form ++ rest)).length ≤ limit → follows (space ++ (form ++ rest))) :
    Repeatable limit (onNextLine limit (withPlace phrase))
      (fun item => Layout.lineBreak * forms item) follows
      (fun item value => holds item value.item) item := by
  refine ⟨fun form member rest next room => ?_, fun form member rest room => ?_,
    fun member => ?_⟩
  all_goals obtain ⟨space, isBreak, spelled, isForm, same⟩ := Language.mem_mul.mp member
  · subst same
    rw [List.append_assoc] at room ⊢
    obtain ⟨⟨c, others, reached, ends⟩, skips⟩ := Layout.skip_lineBreak isBreak (spelled ++ rest)
    have shorter := length_dropFiller_le (space ++ (spelled ++ rest))
    rw [reached, List.length_cons] at shorter
    have following : nextToken others = spelled ++ rest := by
      rw [← nextToken_cons_of_isLineEnd ends, ← reached, nextToken_dropFiller, skips,
        ((starts spelled isForm).append rest).nextToken_eq]
    have fits : (spelled ++ rest).length ≤ limit := by
      rw [List.length_append] at room
      omega
    rw [reached]
    refine Yields.onNextLine ends (by omega) ?_
    rw [following]
    exact (reads spelled isForm rest next fits).withPlace
  · subst same
    rw [List.append_assoc] at room ⊢
    exact admits spelled isForm space isBreak rest room
  · obtain ⟨-, rfl⟩ := List.append_eq_nil_iff.mp same
    exact (starts [] isForm).ne_nil rfl

/-! ## Rules -/

/-- The rules that can be written. -/
structure RuleLine.Writable (rule : RuleLine) : Prop where
  moves : rule.moves ≠ []
  next : PlainName rule.next

/-- The rule that a written rule says, by the movements of its tokens. -/
def WrittenRule.line (rule : WrittenRule) : RuleLine where
  reads := rule.reads
  writes := rule.writes
  moves := rule.moves.filterMap fun token => Direction.ofToken? token.item.toString
  next := rule.next

/-- Tokens that spell movements stand for them. -/
theorem filterMap_of_spells {directions : List Direction} {tokens : List (Located Char)}
    (spelled : List.Forall₂ (fun direction token => Spells direction token.item) directions tokens) :
    (tokens.filterMap fun token => Direction.ofToken? token.item.toString) = directions := by
  induction spelled with
  | nil => rfl
  | cons spells _ ih =>
      rw [Spells] at spells
      rw [List.filterMap_cons, spells, ih]

/-- A rule is read back from each of its layouts. -/
theorem RuleLine.Writable.yields {rule : RuleLine} (writable : rule.Writable) {form : List Char}
    (member : form ∈ Layout.rule rule) (room : form.length ≤ limit) {rest : List Char}
    (bounded : Bounded rest) :
    (ruleLine limit).Yields (form ++ rest) fun written left => rule = written.line ∧ left = rest := by
  simp only [Layout.rule, mul_assoc, Language.mem_mul] at member
  obtain ⟨readForm, isReads, _, ⟨arrow, isArrow, _, ⟨writeForm, isWrites, _, ⟨comma, isComma, _,
    ⟨moveForm, isMoves, _, ⟨other, isOther, nextForm, isNext, rfl⟩, rfl⟩, rfl⟩, rfl⟩, rfl⟩, rfl⟩ :=
    member
  have fewReads := length_le_of_mem_list (fun c _ => readBack_symbol c) isReads
  have fewWrites := length_le_of_mem_list (fun c _ => readBack_symbol c) isWrites
  have fewMoves := length_le_of_mem_list (fun direction _ => readBack_move direction) isMoves
  simp only [List.length_append] at room
  have reads := @readBack_symbols limit rule.reads (by omega)
  have writes := @readBack_symbols limit rule.writes (by omega)
  have moves := @readBack_moves limit rule.moves writable.moves (by omega)
  have next := readBack_stateName writable.next
  have dash : StartsToken ['-', '>'] := ⟨'-', ['>'], rfl, by decide, by decide⟩
  have mark : StartsToken [','] := ⟨',', [], rfl, by decide, by decide⟩
  simp only [List.append_assoc]
  refine Yields.named (reads.bind isReads trivial ?_)
  rintro _ rfl
  refine Yields.after_spaced dash isArrow ((writes.starts writeForm isWrites).append _) ?_
  refine writes.bind isWrites trivial ?_
  rintro _ rfl
  refine Yields.after_spaced mark isComma ((moves.starts moveForm isMoves).append _) ?_
  refine moves.bind isMoves trivial fun tokens spelled => ?_
  refine Yields.after_spaced mark isOther ((next.starts nextForm isNext).append _) ?_
  refine next.bind isNext bounded ?_
  rintro _ rfl
  exact yields_pure ⟨by rw [WrittenRule.line, filterMap_of_spells spelled], rfl⟩

/-- Every rule starts with what it reads. -/
theorem RuleLine.startsToken {rule : RuleLine} {form : List Char}
    (member : form ∈ Layout.rule rule) : StartsToken form := by
  simp only [Layout.rule, mul_assoc] at member
  obtain ⟨readForm, isReads, others, -, rfl⟩ := Language.mem_mul.mp member
  have reads := @readBack_symbols rule.reads.length rule.reads (Nat.le_refl _)
  exact (reads.starts readForm isReads).append others

/-- A rule can be repeated over lines. -/
theorem RuleLine.Writable.repeatable {rule : RuleLine} (writable : rule.Writable) :
    Repeatable limit (onNextLine limit (withPlace (ruleLine limit)))
      (fun rule => Layout.lineBreak * Layout.rule rule) EndsLine
      (fun rule value => rule = value.item.line) rule := by
  refine @repeatable_below limit _ _ (ruleLine limit) Layout.rule EndsLine
    (fun rule written => rule = written.line) rule (fun form member rest ends room => ?_)
    (fun form member => RuleLine.startsToken member)
    (fun form _ space isBreak rest _ => Layout.endsLine_lineBreak_append isBreak _)
  rw [List.length_append] at room
  refine (writable.yields member (by omega) ends.bounded).mono ?_
  rintro _ _ ⟨same, rfl⟩
  exact ⟨same, rfl⟩

/-! ## Blocks -/

/-- What a block says, free of places. -/
def Block.content (block : Block) : String × List RuleLine :=
  (block.state, block.rules.map (·.item.line))

/-- The blocks that can be written. -/
def BlockWritable (content : String × List RuleLine) : Prop :=
  PlainName content.1 ∧ ∀ rule ∈ content.2, rule.Writable

/-- A block is its name, a colon and its rules on lines below. -/
theorem exists_of_mem_block {content : String × List RuleLine} {form : List Char}
    (member : form ∈ Layout.block content) :
    ∃ space ∈ Layout.gap,
      ∃ rules ∈ (content.2.map fun line => Layout.lineBreak * Layout.rule line).prod,
        form = content.1.toList ++ (space ++ ([':'] ++ rules)) := by
  simp only [Layout.block, mul_assoc, Language.mem_mul] at member
  obtain ⟨_, rfl, _, ⟨space, isGap, _, ⟨_, rfl, rules, isRules, rfl⟩, rfl⟩, rfl⟩ := member
  exact ⟨space, isGap, rules, isRules, rfl⟩

/-- No arrow follows the first character of a name that a colon follows. -/
theorem refuses_arrow {others space : List Char} (nameChars : ∀ c ∈ others, isNameChar c)
    (isGap : space ∈ Layout.gap) (rest : List Char) :
    (literal ['-', '>']).Refuses (dropFiller (others ++ (space ++ ([':'] ++ rest)))) := by
  cases others with
  | nil =>
      have colon : dropFiller ([':'] ++ rest) = ':' :: rest := dropFiller_cons (by decide) rest
      rw [List.nil_append, Layout.dropFiller_gap_append isGap, colon]
      exact refuses_literal_of_ne (by decide) _ _
  | cons d others =>
      have visible : StartsToken (d :: others) := Layout.startsToken_of_isBareSymbol
        (isBareSymbol_of_isNameChar (nameChars d List.mem_cons_self)) others
      rw [(visible.append _).dropFiller_eq]
      apply refuses_literal
      rintro ⟨left, same⟩
      have second : (others ++ (space ++ ([':'] ++ rest))).head? = some '>' := by
        have tail : '>' :: left = others ++ (space ++ ([':'] ++ rest)) := (List.cons.inj same).2
        rw [← tail]
        rfl
      cases others with
      | cons e others =>
          obtain rfl : e = '>' := by simpa using second
          exact absurd (nameChars '>' (by simp)) (by decide)
      | nil =>
          cases space with
          | cons e space =>
              obtain rfl : e = '>' := by simpa using second
              exact absurd (Layout.isFiller_of_mem_gap isGap List.mem_cons_self) (by decide)
          | nil => simp at second

/-- The first line of a block is no rule: its name is followed by no arrow. -/
theorem refuses_ruleLine_of_plainName {name : String} (plain : PlainName name)
    {space : List Char} (isGap : space ∈ Layout.gap) (rest : List Char) :
    (ruleLine limit).Refuses (name.toList ++ (space ++ ([':'] ++ rest))) := by
  obtain ⟨c, others, chars, nameChar⟩ := plain.exists_cons
  have later : ∀ d ∈ others, isNameChar d := fun d member =>
    plain.nameChars d (chars ▸ List.mem_cons_of_mem _ member)
  have bracket : c ≠ '[' := by
    rintro rfl
    exact absurd nameChar (by decide)
  have first (text : List Char) : (symbols limit).Reads (c :: text) [c] text := by
    refine Refuses.orElse_yields (refuses_bracketed bracket _).named ?_
    refine (reads_bareSymbol (isBareSymbol_of_isNameChar nameChar) _).bind ?_
    rintro _ _ ⟨rfl, rfl⟩
    exact yields_pure ⟨rfl, rfl⟩
  rw [chars, List.cons_append]
  refine Refuses.named ((first _).bind_refuses ?_)
  rintro _ _ ⟨rfl, rfl⟩
  exact Refuses.after_filler (refuses_arrow later isGap rest).bind

/-- Something that ends a line, and is not followed by a rule. -/
def EndsBlock (limit : Nat) (rest : List Char) : Prop :=
  EndsLine rest ∧ (onNextLine limit (withPlace (ruleLine limit))).Refuses (dropFiller rest)

/-- A block is read back from each of its layouts. -/
theorem BlockWritable.yields {content : String × List RuleLine} (writable : BlockWritable content)
    {form : List Char} (member : form ∈ Layout.block content) {rest : List Char}
    (ends : EndsBlock limit rest) (room : (form ++ rest).length ≤ limit) :
    (block limit).Yields (form ++ rest) fun value left =>
      content = value.content ∧ dropFiller left = dropFiller rest := by
  obtain ⟨space, isGap, rules, isRules, rfl⟩ := exists_of_mem_block member
  simp only [List.append_assoc, List.length_append, List.length_cons] at room ⊢
  have colon (text : List Char) : StartsToken ([':'] ++ text) :=
    ⟨':', text, rfl, by decide, by decide⟩
  have bounded : Bounded (space ++ ([':'] ++ (rules ++ rest))) :=
    Layout.bounded_gap_append isGap (bounded_cons (by decide) _)
  have repeatable (rule : RuleLine) (inside : rule ∈ content.2) :=
    @RuleLine.Writable.repeatable limit rule (writable.2 rule inside)
  have fits : (rules ++ rest).length ≤ limit := by
    rw [List.length_append]
    omega
  have left : ItemsLeft limit _ _ _ _ rest content.2 (dropFiller (rules ++ rest)) :=
    ⟨repeatable, rules, isRules, dropFiller_dropFiller _, fits⟩
  refine Yields.named ((readBack_stateName writable.1).bind rfl bounded ?_)
  rintro _ rfl
  refine Yields.after_filler ?_
  rw [Layout.dropFiller_gap_append isGap, (colon _).dropFiller_eq]
  refine Yields.after_literal [':'] (Yields.after_filler ?_)
  refine (left.yields_many left.length_le ends.1 ends.2).bind ?_
  rintro values left ⟨related, reached⟩
  exact yields_pure ⟨by rw [Block.content, Checks.map_eq_of_forall₂ related], reached⟩

/-- Every block starts with its name. -/
theorem BlockWritable.startsToken {content : String × List RuleLine}
    (writable : BlockWritable content) {form : List Char} (member : form ∈ Layout.block content) :
    StartsToken form := by
  obtain ⟨space, -, rules, -, rfl⟩ := exists_of_mem_block member
  exact ((readBack_stateName writable.1).starts _ rfl).append _

/-- A block ends where another one follows. -/
theorem BlockWritable.endsBlock {content : String × List RuleLine}
    (writable : BlockWritable content) {form space : List Char}
    (member : form ∈ Layout.block content) (isBreak : space ∈ Layout.lineBreak) {rest : List Char}
    (room : (space ++ (form ++ rest)).length ≤ limit) :
    EndsBlock limit (space ++ (form ++ rest)) := by
  refine ⟨Layout.endsLine_lineBreak_append isBreak _, Refuses.below room ?_⟩
  rw [Layout.nextToken_lineBreak_append isBreak,
    ((writable.startsToken member).append rest).nextToken_eq]
  obtain ⟨space, isGap, rules, -, rfl⟩ := exists_of_mem_block member
  simp only [List.append_assoc]
  exact (refuses_ruleLine_of_plainName writable.1 isGap _).withPlace

/-- A block can be repeated over lines. -/
theorem BlockWritable.repeatable {content : String × List RuleLine}
    (writable : BlockWritable content) :
    Repeatable limit (onNextLine limit (withPlace (block limit)))
      (fun content => Layout.lineBreak * Layout.block content) (EndsBlock limit)
      (fun content value => content = value.item.content) content :=
  @repeatable_below limit _ _ (block limit) Layout.block (EndsBlock limit)
    (fun content value => content = value.content) content
    (fun _ member _ ends room => writable.yields member ends room)
    (fun _ member => writable.startsToken member)
    (fun _ member _ isBreak _ room => writable.endsBlock member isBreak room)

/-! ## Programs -/

section Ending

variable {empty last : List Char} (isEmpty : empty ∈ Layout.emptyLines)
  (isRest : last ∈ Layout.lineRest)

include isEmpty isRest

/-- Nothing more is read on the lines after the last token. -/
theorem refuses_below_ending {α : Type} {phrase : Phrase α} (refuses : phrase.Refuses [])
    (room : (empty ++ last).length ≤ limit) :
    (onNextLine limit phrase).Refuses (dropFiller (empty ++ last)) := by
  refine Refuses.below room ?_
  rw [Layout.nextToken_emptyLines_lineRest isEmpty isRest]
  exact refuses

/-- After the last token only space is left, and then the text ends. -/
theorem yields_ending {value : Program} {post : Program → List Char → Prop}
    (room : (empty ++ last).length ≤ limit) {text : List Char}
    (reached : dropFiller text = dropFiller (empty ++ last)) (holds : post value []) :
    (do filler; let _ ← many limit newline; filler; endOfText; return value :
      Phrase Program).Yields text post := by
  have shorter := length_dropFiller_le (empty ++ last)
  refine Yields.after_filler ((@yields_many_newline limit (dropFiller text) ?_).bind ?_)
  · rw [reached]
    omega
  intro _ left ended
  have finished : dropFiller left = [] := by
    rw [ended, nextToken_dropFiller, ← nextToken_dropFiller text, reached, nextToken_dropFiller,
      Layout.nextToken_emptyLines_lineRest isEmpty isRest]
  have ending : endOfText.Yields [] fun _ rest => rest = [] :=
    Yields.named fun offset => ⟨(), { offset, rest := [] }, rfl, rfl⟩
  refine Yields.after_filler ?_
  rw [finished]
  refine ending.bind ?_
  rintro _ _ rfl
  exact yields_pure holds

end Ending

/-- The headers of a listing are read back, up to its rules. -/
theorem yields_many_headerLine {headers : List Header}
    (writable : ∀ header ∈ headers, header.Writable) {heading : List Char}
    (member : heading ∈ (headers.map fun header => Layout.header header * Layout.lineBreak).prod)
    {rest : List Char} (room : (heading ++ ("rules:".toList ++ rest)).length ≤ limit)
    {text : List Char}
    (next : dropFiller text = nextToken (heading ++ ("rules:".toList ++ rest))) :
    (many limit (headerLine limit)).Yields text fun values left =>
      values.map (·.item.trimmed) = headers.map Header.trimmed ∧
        dropFiller left = "rules:".toList ++ rest := by
  have rules : StartsToken ("rules:".toList ++ rest) := ⟨'r', _, rfl, by decide, by decide⟩
  have repeatable (header : Header) (inside : header ∈ headers) :=
    @Header.Writable.repeatable limit header (writable header inside)
  have stops : (headerLine limit).Refuses (dropFiller ("rules:".toList ++ rest)) := by
    rw [rules.dropFiller_eq]
    exact (refuses_header_rules rest).withPlace.bind
  have starts := follows_prod_append repeatable member room rules
  rw [starts.nextToken_eq, ← starts.dropFiller_eq] at next
  have left : ItemsLeft limit _ _ _ _ _ headers text := ⟨repeatable, heading, member, next, room⟩
  refine (left.yields_many left.length_le rules stops).mono ?_
  rintro values left ⟨related, reached⟩
  rw [rules.dropFiller_eq] at reached
  refine ⟨?_, reached⟩
  rw [← List.forall₂_eq_eq_eq, List.forall₂_map_left_iff, List.forall₂_map_right_iff]
  exact related.flip.imp fun value header same => same.symm

/-- The blocks of a listing are read back, up to the space at its end. -/
theorem yields_blocks {contents : List (String × List RuleLine)} (someBlock : contents ≠ [])
    (writable : ∀ content ∈ contents, BlockWritable content) {body : List Char}
    (member : body ∈ (contents.map fun content => Layout.lineBreak * Layout.block content).prod)
    {rest : List Char} (room : (body ++ rest).length ≤ limit) (ends : EndsBlock limit rest)
    (stops : (onNextLine limit (withPlace (block limit))).Refuses (dropFiller rest)) :
    (blocks limit).Yields ("rules:".toList ++ (body ++ rest)) fun values left =>
      values.map (·.item.content) = contents ∧ dropFiller left = dropFiller rest := by
  have repeatable (content : String × List RuleLine) (inside : content ∈ contents) :=
    @BlockWritable.repeatable limit content (writable content inside)
  have left : ItemsLeft limit _ _ _ _ rest contents (body ++ rest) :=
    ⟨repeatable, body, member, rfl, room⟩
  refine Yields.named (Yields.after_literal _ (Yields.after_filler ?_))
  refine (left.yields_many1 someBlock left.length_le ends stops).mono ?_
  rintro values left ⟨related, reached⟩
  exact ⟨Checks.map_eq_of_forall₂ related, reached⟩

/-- A program is read back from each of its layouts. -/
theorem yields_program {headers : List Header} {contents : List (String × List RuleLine)}
    (someBlock : contents ≠ []) (headersWritable : ∀ header ∈ headers, header.Writable)
    (blocksWritable : ∀ content ∈ contents, BlockWritable content) {text : List Char}
    (member : text ∈ Layout.listing headers contents) (room : text.length ≤ limit) :
    (program limit).Yields text fun value _ =>
      value.headers.map (·.item.trimmed) = headers.map Header.trimmed ∧
        value.blocks.map (·.item.content) = contents := by
  simp only [Layout.listing, mul_assoc, Language.mem_mul] at member
  obtain ⟨leading, isLeading, _, ⟨indent, isIndent, _, ⟨heading, isHeading, _, ⟨_, rfl, _,
    ⟨body, isBody, _, ⟨empty, isEmpty, last, isRest, rfl⟩, rfl⟩, rfl⟩, rfl⟩, rfl⟩, rfl⟩ := member
  generalize whole : leading ++ (indent ++ (heading ++ ("rules:".toList ++
    (body ++ (empty ++ last))))) = text at room
  have fits : (heading ++ ("rules:".toList ++ (body ++ (empty ++ last)))).length ≤ limit ∧
      (body ++ (empty ++ last)).length ≤ limit ∧ (empty ++ last).length ≤ limit := by
    simp only [← whole, List.length_append] at room ⊢
    omega
  have noRule : (ruleLine limit).Refuses [] := fun _ => rfl
  have noBlock : (block limit).Refuses [] := (refuses_stateName (by simp)).bind.named
  have ends : EndsBlock limit (empty ++ last) :=
    ⟨Layout.endsLine_emptyLines_lineRest isEmpty isRest,
      refuses_below_ending isEmpty isRest noRule.withPlace fits.2.2⟩
  have stops := refuses_below_ending isEmpty isRest noBlock.withPlace fits.2.2
  have shorter := length_dropFiller_le text
  have first : nextToken text =
      nextToken (heading ++ ("rules:".toList ++ (body ++ (empty ++ last)))) := by
    rw [← whole, Layout.nextToken_emptyLines_append isLeading, Layout.nextToken_gap_append isIndent]
  refine Yields.named (Yields.after_filler ?_)
  refine (@yields_many_newline limit _ (by omega)).bind ?_
  intro _ left reached
  refine Yields.after_filler ?_
  refine (yields_many_headerLine headersWritable isHeading fits.1 ?_).bind ?_
  · rw [dropFiller_dropFiller, reached, nextToken_dropFiller, first]
  rintro readHeaders rest ⟨sameHeaders, next⟩
  refine Yields.after_filler ?_
  rw [next]
  refine (yields_blocks someBlock blocksWritable isBody fits.2.1 ends stops).bind ?_
  rintro readBlocks rest ⟨sameBlocks, final⟩
  exact yields_ending isEmpty isRest fits.2.2 final ⟨sameHeaders, sameBlocks⟩

/-- A program is read back from each of its layouts. -/
theorem parse_layout {headers : List Header} {contents : List (String × List RuleLine)}
    (someBlock : contents ≠ []) (headersWritable : ∀ header ∈ headers, header.Writable)
    (blocksWritable : ∀ content ∈ contents, BlockWritable content) {text : List Char}
    (member : text ∈ Layout.listing headers contents) :
    ∃ program, parse text = .ok program ∧
      program.headers.map (·.item.trimmed) = headers.map Header.trimmed ∧
        program.blocks.map (·.item.content) = contents := by
  obtain ⟨program, place, result, same⟩ :=
    yields_program someBlock headersWritable blocksWritable member (Nat.le_add_right _ 1) 0
  refine ⟨program, ?_, same⟩
  simp only [parse, Cursor.start]
  rw [result]

end TapeMachine.Listing
