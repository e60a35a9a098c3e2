import TapeMachine.Listing.Printer
import TapeMachine.Proofs.Listing.Layout
import TapeMachine.Proofs.Text

/-!
# The printer's layout

The text that the printer makes of headers and blocks is one of their layouts: one space after each
mark, a line feed after each line, a blank line before the rules, and brackets around all lists.
-/

namespace TapeMachine.Listing

/-! ## Tokens and lists -/

/-- The printer quotes every symbol that the reader wants quoted. -/
theorem isBareSymbol_of_not_needsQuotes {c : Char} (plain : needsQuotes c = false) :
    isBareSymbol c := by
  have other : ∀ d, needsQuotes d → c ≠ d := by
    rintro d quoted rfl
    rw [plain] at quoted
    cases quoted
  simp [isBareSymbol, isFiller, isLineEnd, other '[' (by decide), other ']' (by decide),
    other ',' (by decide), other '\'' (by decide), other '#' (by decide), other ' ' (by decide),
    other '\t' (by decide), other '\n' (by decide), other '\r' (by decide)]

/-- A printed symbol is one of its layouts. -/
theorem writeSymbol_mem (c : Char) : writeSymbol c ∈ Layout.symbol c := by
  by_cases quotes : needsQuotes c
  · exact Or.inl (by simp [writeSymbol, quotes])
  · have bare : isBareSymbol c := isBareSymbol_of_not_needsQuotes (by simpa using quotes)
    exact Or.inr ⟨bare, by simp [writeSymbol, quotes]⟩

/-- The letter of a movement is one of its layouts. -/
theorem token_mem (direction : Direction) : direction.token.toList ∈ Layout.move direction := by
  cases direction <;> exact Or.inl rfl

/-- Any number of spaces is a gap. -/
theorem replicate_mem_gap (count : Nat) : List.replicate count ' ' ∈ Layout.gap := by
  intro c inside
  rw [(List.mem_replicate.mp inside).2]
  decide

/-- Nothing need follow the last token of a line. -/
theorem nil_mem_lineRest : [] ∈ Layout.lineRest :=
  Language.append_mem_mul (replicate_mem_gap 0) (Or.inl rfl)

/-- A mark with any number of spaces on each side is spaced. -/
theorem mem_spaced {mark : List Char} (before behind : Nat) :
    List.replicate before ' ' ++ mark ++ List.replicate behind ' ' ∈ Layout.spaced mark :=
  Language.append_mem_mul (Language.append_mem_mul (replicate_mem_gap before) rfl)
    (replicate_mem_gap behind)

/-- Forms of all items, one after the other, are a concatenation of them. -/
theorem flatMap_mem_prod {α : Type} {form : α → List Char} {forms : α → Language Char}
    {items : List α} (member : ∀ item ∈ items, form item ∈ forms item) :
    items.flatMap form ∈ (items.map forms).prod := by
  induction items with
  | nil => exact rfl
  | cons item items ih =>
      rw [List.flatMap_cons]
      exact Language.append_mem_mul (member item List.mem_cons_self)
        (ih fun other inside => member other (List.mem_cons_of_mem _ inside))

/-- Printed items have a comma and a space before each but the first. -/
theorem writeItems_cons (form : List Char) (forms : List (List Char)) :
    writeItems (form :: forms) = form ++ forms.flatMap ([',', ' '] ++ ·) := by
  induction forms generalizing form with
  | nil => simp [writeItems]
  | cons next forms ih =>
      have later := ih next
      simp only [writeItems, List.intersperse_cons_cons, List.flatten_cons] at later ⊢
      rw [later]
      simp

/-- A printed list is one of its layouts if its printed values are. -/
theorem writeList_mem {α : Type} {write : α → List Char} {forms : α → Language Char}
    {values : List α} (member : ∀ value ∈ values, write value ∈ forms value) :
    writeList (values.map write) ∈ Layout.bracketed forms values := by
  have inner : writeItems (values.map write) ∈ Layout.items forms values := by
    cases values with
    | nil => exact rfl
    | cons value values =>
        rw [List.map_cons, writeItems_cons, List.flatMap_map]
        refine Language.append_mem_mul (member value List.mem_cons_self) ?_
        refine flatMap_mem_prod fun other inside => ?_
        exact Language.append_mem_mul (mem_spaced 0 1) (member other (List.mem_cons_of_mem _ inside))
  have none : [] ∈ Layout.gap := replicate_mem_gap 0
  simp only [Layout.bracketed, mul_assoc, Language.mem_mul]
  exact ⟨_, rfl, _, ⟨_, none, _, ⟨_, inner, _, ⟨_, none, _, rfl, rfl⟩, rfl⟩, rfl⟩, rfl⟩

/-- Printed symbols are one of their layouts. -/
theorem writeSymbols_mem (values : List Char) :
    writeSymbols values ∈ Layout.bracketed Layout.symbol values :=
  writeList_mem fun c _ => writeSymbol_mem c

/-- Printed names are one of their layouts. -/
theorem writeNames_mem (names : List String) :
    writeNames names ∈ Layout.bracketed Layout.name names :=
  writeList_mem fun _ _ => rfl

/-- A line feed, empty lines and indentation break a line. -/
theorem mem_lineBreak {empty : List Char} (isEmpty : empty ∈ Layout.emptyLines) (indent : Nat) :
    '\n' :: (empty ++ List.replicate indent ' ') ∈ Layout.lineBreak := by
  have ending : ['\n'] ∈ Layout.lineEnd := Or.inl rfl
  simp only [Layout.lineBreak, mul_assoc, Language.mem_mul]
  exact ⟨_, nil_mem_lineRest, _, ⟨_, ending, _, ⟨_, isEmpty, _, replicate_mem_gap indent, rfl⟩, rfl⟩, rfl⟩

/-- A line feed alone is an empty line. -/
theorem newline_mem_emptyLines : ['\n'] ∈ Layout.emptyLines := by
  have ending : ['\n'] ∈ Layout.lineEnd := Or.inl rfl
  have line : ['\n'] ∈ Layout.lineRest * Layout.lineEnd :=
    Language.append_mem_mul nil_mem_lineRest ending
  exact Language.mem_kstar.mpr ⟨[['\n']], rfl, by simpa using line⟩

/-! ## Headers -/

/-- The written value of a header. -/
def Header.value : Header → List Char
  | .name chars => chars
  | .tapes digits => digits
  | .blank c => writeSymbol c
  | .wildcard c => writeSymbol c
  | .states names => writeNames names
  | .input values => writeSymbols values
  | .alphabet values => writeSymbols values
  | .start state => state.toList
  | .accept names => writeNames names

/-- The line of a header. -/
def Header.line (header : Header) : List Char :=
  writeHeader header.keyword header.value

/-- The printed value of a header is one of its layouts. -/
theorem Header.value_mem (header : Header) : header.value ∈ Layout.headerValue header := by
  cases header with
  | name chars => exact rfl
  | tapes digits => exact rfl
  | blank c => exact writeSymbol_mem c
  | wildcard c => exact writeSymbol_mem c
  | states names => exact Or.inl (writeNames_mem names)
  | input values => exact writeSymbols_mem values
  | alphabet values => exact writeSymbols_mem values
  | start state => exact rfl
  | accept names => exact Or.inl (writeNames_mem names)

/-- The line of a header and the empty lines below it. -/
theorem Header.line_append_mem (header : Header) {empty : List Char}
    (isEmpty : empty ∈ Layout.emptyLines) :
    header.line ++ empty ∈ Layout.header header * Layout.lineBreak := by
  have spelled : header.keyword.toList ++ [':'] ++ List.replicate 1 ' ' ++ header.value ∈
      Layout.header header :=
    Language.append_mem_mul (Language.append_mem_mul rfl (replicate_mem_gap 1)) header.value_mem
  refine Language.mem_mul.mpr ⟨_, spelled, _, mem_lineBreak isEmpty 0, ?_⟩
  simp [Header.line, writeHeader]

/-- The header lines and an empty line after them. -/
theorem flatMap_line_mem {headers : List Header} :
    headers.flatMap Header.line ++ ['\n'] ∈ Layout.emptyLines * Layout.gap *
      (headers.map fun header => Layout.header header * Layout.lineBreak).prod := by
  have none : [] ∈ Layout.emptyLines * Layout.gap :=
    Language.append_mem_mul (Language.nil_mem_kstar _) (replicate_mem_gap 0)
  cases headers with
  | nil =>
      refine Language.mem_mul.mpr ⟨['\n'], Language.mem_mul.mpr ?_, [], rfl, rfl⟩
      exact ⟨_, newline_mem_emptyLines, _, replicate_mem_gap 0, rfl⟩
  | cons header headers =>
      refine Language.mem_mul.mpr ⟨[], none, _, ?_, rfl⟩
      -- The empty line belongs to the last header.
      induction headers generalizing header with
      | nil =>
          refine Language.mem_mul.mpr ⟨_, header.line_append_mem newline_mem_emptyLines, [], rfl, ?_⟩
          simp
      | cons next headers ih =>
          refine Language.mem_mul.mpr ⟨_, header.line_append_mem (Language.nil_mem_kstar _), _,
            ih next, ?_⟩
          simp

/-! ## Rules and blocks -/

/-- The written form of a rule, without its indentation. -/
def RuleLine.form (rule : RuleLine) : List Char :=
  writeSymbols rule.reads ++ [' ', '-', '>', ' '] ++ writeSymbols rule.writes ++ [',', ' '] ++
    writeList (rule.moves.map fun direction => direction.token.toList) ++ [',', ' '] ++
    rule.next.toList

/-- The line of a rule. -/
def RuleLine.line (rule : RuleLine) : List Char :=
  [' ', ' ', ' ', ' '] ++ rule.form ++ ['\n']

/-- A printed rule is one of its layouts. -/
theorem RuleLine.form_mem (rule : RuleLine) : rule.form ∈ Layout.rule rule := by
  have reads : writeSymbols rule.reads ∈ Layout.list Layout.symbol rule.reads :=
    Or.inl (writeSymbols_mem rule.reads)
  have writes : writeSymbols rule.writes ∈ Layout.list Layout.symbol rule.writes :=
    Or.inl (writeSymbols_mem rule.writes)
  have moves : writeList (rule.moves.map fun direction => direction.token.toList) ∈
      Layout.list Layout.move rule.moves :=
    Or.inl (writeList_mem fun direction _ => token_mem direction)
  have arrow : [' ', '-', '>', ' '] ∈ Layout.spaced ['-', '>'] := mem_spaced 1 1
  have comma : [',', ' '] ∈ Layout.spaced [','] := mem_spaced 0 1
  simp only [Layout.rule, mul_assoc, Language.mem_mul]
  refine ⟨_, reads, _, ⟨_, arrow, _, ⟨_, writes, _, ⟨_, comma, _, ⟨_, moves, _, ⟨_, comma, _, rfl,
    rfl⟩, rfl⟩, rfl⟩, rfl⟩, rfl⟩, ?_⟩
  simp [RuleLine.form]

/-- The lines of a block. -/
def blockLines (content : String × List RuleLine) : List Char :=
  [' ', ' '] ++ content.1.toList ++ [':', '\n'] ++ content.2.flatMap RuleLine.line

/-- Ends of lines can be counted to the lines that they start. -/
theorem newline_cons_flatMap {α : Type} (form : α → List Char) (items : List α) :
    '\n' :: items.flatMap (fun item => form item ++ ['\n']) =
      items.flatMap (fun item => '\n' :: form item) ++ ['\n'] := by
  induction items with
  | nil => rfl
  | cons item items ih => simp [ih]

/-- A block without the end of its last line. -/
def blockForm (content : String × List RuleLine) : List Char :=
  content.1.toList ++ ':' ::
    content.2.flatMap fun rule => '\n' :: ([' ', ' ', ' ', ' '] ++ rule.form)

/-- The lines of a block are its form, indented and with the end of its last line. -/
theorem blockLines_eq (content : String × List RuleLine) :
    blockLines content = [' ', ' '] ++ blockForm content ++ ['\n'] := by
  have shifted : '\n' :: content.2.flatMap RuleLine.line =
      content.2.flatMap (fun rule => '\n' :: ([' ', ' ', ' ', ' '] ++ rule.form)) ++ ['\n'] :=
    newline_cons_flatMap (fun rule => [' ', ' ', ' ', ' '] ++ RuleLine.form rule) content.2
  simp [blockLines, blockForm, shifted]

/-- A printed block is one of its layouts. -/
theorem blockForm_mem (content : String × List RuleLine) :
    blockForm content ∈ Layout.block content := by
  have rules : content.2.flatMap (fun rule => '\n' :: ([' ', ' ', ' ', ' '] ++ rule.form)) ∈
      (content.2.map fun rule => Layout.lineBreak * Layout.rule rule).prod := by
    refine flatMap_mem_prod fun rule _ => ?_
    exact Language.append_mem_mul (mem_lineBreak (Language.nil_mem_kstar _) 4) rule.form_mem
  simp only [Layout.block, mul_assoc, Language.mem_mul]
  exact ⟨_, rfl, _, ⟨[], replicate_mem_gap 0, _, ⟨_, rfl, _, rules, rfl⟩, rfl⟩, rfl⟩

/-! ## Listings -/

/-- The text of a program: its headers, an empty line and its blocks. -/
def listingOf (headers : List Header) (contents : List (String × List RuleLine)) : List Char :=
  headers.flatMap Header.line ++ '\n' :: ("rules:".toList ++ '\n' :: contents.flatMap blockLines)

/-- The text of a program is one of its layouts. -/
theorem listingOf_mem (headers : List Header) (contents : List (String × List RuleLine)) :
    listingOf headers contents ∈ Layout.listing headers contents := by
  have blocks : contents.flatMap (fun content => '\n' :: ([' ', ' '] ++ blockForm content)) ∈
      (contents.map fun content => Layout.lineBreak * Layout.block content).prod := by
    refine flatMap_mem_prod fun content _ => ?_
    exact Language.append_mem_mul (mem_lineBreak (Language.nil_mem_kstar _) 2)
      (blockForm_mem content)
  have shifted := newline_cons_flatMap (fun content => [' ', ' '] ++ blockForm content) contents
  simp only [← blockLines_eq] at shifted
  have text : listingOf headers contents = (headers.flatMap Header.line ++ ['\n']) ++
      "rules:".toList ++ contents.flatMap (fun content => '\n' :: ([' ', ' '] ++ blockForm content))
      ++ ['\n'] ++ [] := by
    rw [listingOf, shifted]
    simp only [List.append_assoc, List.cons_append, List.nil_append, List.append_nil]
  have heading : (headers.flatMap Header.line ++ ['\n']) ++ "rules:".toList ∈
      Layout.emptyLines * Layout.gap *
        (headers.map fun header => Layout.header header * Layout.lineBreak).prod *
          {"rules:".toList} :=
    Language.append_mem_mul flatMap_line_mem rfl
  rw [text]
  exact Language.append_mem_mul (Language.append_mem_mul (Language.append_mem_mul heading blocks)
    newline_mem_emptyLines) nil_mem_lineRest

end TapeMachine.Listing
