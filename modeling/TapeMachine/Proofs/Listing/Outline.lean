import TapeMachine.Proofs.Listing.Grammar
import TapeMachine.Proofs.Numerals

/-!
# Reading does not depend on the layout

An outline is what a listing says, free of layout and places. Whatever the layout, the text of an
outline is read exactly when the outline is consistent, and what is read is its document: the
declared values, and for what is not declared the default or the value inferred from its use.
-/

namespace TapeMachine.Listing

open Checks

/-- Headers in any order and at least one block, of names and numerals that can be written. -/
structure Outline where
  headers : List Header
  blocks : List (String × List RuleLine)
  headersWritable : ∀ header ∈ headers, header.Writable
  /-- The name of a machine has no white space at its ends. -/
  trimmed : ∀ name, .name name ∈ headers → Text.trim name = name
  someBlock : blocks ≠ []
  blocksWritable : ∀ content ∈ blocks, BlockWritable content

/-! ## What headers settle -/

/-- The declared values, each from the first header of its kind. -/
def Heading.ofHeaders (headers : List Header) : Heading where
  name := headers.findSome? fun | .name text => some text | _ => none
  tapes := headers.findSome? fun | .tapes digits => some (Nat.ofDigitChars 10 digits 0) | _ => none
  blank := headers.findSome? fun | .blank symbol => some symbol | _ => none
  wildcard := headers.findSome? fun | .wildcard symbol => some symbol | _ => none
  states := headers.findSome? fun | .states names => some names | _ => none
  input := headers.findSome? fun | .input symbols => some symbols | _ => none
  alphabet := headers.findSome? fun | .alphabet symbols => some symbols | _ => none
  start := headers.findSome? fun | .start name => some name | _ => none
  accept := headers.findSome? fun | .accept names => some names | _ => none

/-- A heading declares a header exactly when one of its headers has the same keyword. -/
theorem Heading.declares_ofHeaders (headers : List Header) (header : Header) :
    (Heading.ofHeaders headers).declares header = true ↔
      header.keyword ∈ headers.map Header.keyword := by
  rw [List.mem_map]
  cases header <;>
    simp only [Heading.declares, Heading.ofHeaders, List.findSome?_isSome_iff] <;>
    refine exists_congr fun other => and_congr_right fun _ => ?_ <;>
    cases other <;> simp [Header.keyword]

/-- A tape count of 64 bits, if the header declares one. -/
def Header.Fits (header : Header) : Prop :=
  ∀ digits, header = .tapes digits → Nat.ofDigitChars 10 digits 0 < 2 ^ 64

/-- A header that is accepted has a tape count of 64 bits, if it declares one. -/
theorem Heading.fits_of_set {heading result : Heading} {header : Header}
    (accepted : heading.set header = .ok result) : header.Fits := by
  rintro digits rfl
  cases value : Text.wordOfDigits? digits with
  | none => simp [Heading.set, value] at accepted
  | some tapes => exact (Text.wordOfDigits?_eq_some.mp value).1

/-- A header of a new kind adds its value to those declared before. -/
theorem Heading.set_ofHeaders {headers : List Header} {header : Header}
    (trimmed : ∀ name, header = .name name → Text.trim name = name) (fits : header.Fits)
    (new : (Heading.ofHeaders headers).declares header = false) :
    (Heading.ofHeaders headers).set header = .ok (Heading.ofHeaders (headers ++ [header])) := by
  cases header with
  | name text =>
      simp only [Heading.declares, Heading.ofHeaders, Option.isSome_eq_false_iff,
        Option.isNone_iff_eq_none] at new
      simp [Heading.set, Heading.ofHeaders, List.findSome?_append, new, trimmed text rfl]
  | tapes digits =>
      have value := Text.wordOfDigits?_eq_some.mpr ⟨fits digits rfl, rfl⟩
      simp only [Heading.declares, Heading.ofHeaders, Option.isSome_eq_false_iff,
        Option.isNone_iff_eq_none] at new
      simp [Heading.set, Heading.ofHeaders, List.findSome?_append, new, value]
  | _ =>
      simp only [Heading.declares, Heading.ofHeaders, Option.isSome_eq_false_iff,
        Option.isNone_iff_eq_none] at new
      simp [Heading.set, Heading.ofHeaders, List.findSome?_append, new]

/-- A header is added exactly when it is of a new kind and its tape count fits. -/
theorem Heading.declare_ofHeaders_eq_ok {headers : List Header} {header : Header}
    {heading : Heading} (trimmed : ∀ name, header = .name name → Text.trim name = name) :
    (Heading.ofHeaders headers).declare header = .ok heading ↔
      header.keyword ∉ headers.map Header.keyword ∧ header.Fits ∧
        Heading.ofHeaders (headers ++ [header]) = heading := by
  rw [← Heading.declares_ofHeaders, Heading.declare]
  cases new : (Heading.ofHeaders headers).declares header with
  | true => simp
  | false =>
      simp only [Bool.false_eq_true, if_false, not_false_eq_true, true_and]
      constructor
      · intro accepted
        have fits := Heading.fits_of_set accepted
        rw [Heading.set_ofHeaders trimmed fits new] at accepted
        exact ⟨fits, Except.ok.inj accepted⟩
      · rintro ⟨fits, rfl⟩
        exact Heading.set_ofHeaders trimmed fits new

/-- Headers are collected exactly when no kind is repeated and the tape count fits. -/
theorem foldlM_declare_eq_ok {headers : List Header} {heading : Heading}
    (trimmed : ∀ name, .name name ∈ headers → Text.trim name = name) :
    headers.foldlM Heading.declare {} = .ok heading ↔
      (headers.map Header.keyword).Nodup ∧ (∀ header ∈ headers, header.Fits) ∧
        Heading.ofHeaders headers = heading := by
  -- From the right: the last header is declared where those before it are settled.
  induction headers using List.reverseRecOn generalizing heading with
  | nil => simp [Heading.ofHeaders, pure, Except.pure]
  | append_singleton headers header ih =>
      have before : ∀ name, .name name ∈ headers → Text.trim name = name :=
        fun name member => trimmed name (List.mem_append_left _ member)
      have last : ∀ name, header = .name name → Text.trim name = name := by
        rintro name rfl
        exact trimmed name (by simp)
      have distinct : ((headers ++ [header]).map Header.keyword).Nodup ↔
          (headers.map Header.keyword).Nodup ∧
            header.keyword ∉ headers.map Header.keyword := by
        rw [List.map_append, List.map_singleton, (List.perm_append_singleton _ _).nodup_iff,
          List.nodup_cons, and_comm]
      rw [List.foldlM_append, distinct]
      simp only [List.foldlM_cons, List.foldlM_nil, bind_pure, bind_eq_ok, ih before,
        List.forall_mem_append, List.forall_mem_singleton]
      constructor
      · rintro ⟨_, ⟨unique, fits, rfl⟩, declared⟩
        obtain ⟨new, lastFits, same⟩ := (Heading.declare_ofHeaders_eq_ok last).mp declared
        exact ⟨⟨unique, new⟩, ⟨fits, lastFits⟩, same⟩
      · rintro ⟨⟨unique, new⟩, ⟨fits, lastFits⟩, same⟩
        exact ⟨_, ⟨unique, fits, rfl⟩,
          (Heading.declare_ofHeaders_eq_ok last).mpr ⟨new, lastFits, same⟩⟩

/-! ## What an outline means -/

namespace Outline

variable (outline : Outline)

/-- The texts that say what the outline says. -/
def layouts : Language Char :=
  Layout.listing outline.headers outline.blocks

/-- All rules, in order. -/
def rules : List RuleLine :=
  outline.blocks.flatMap (·.2)

/-- An outline without mistakes. -/
structure Consistent : Prop where
  /-- No header kind occurs twice. -/
  headers : (outline.headers.map Header.keyword).Nodup
  /-- No state has two blocks. -/
  blocks : (outline.blocks.map (·.1)).Nodup
  /-- Every rule has equally many reads, writes and movements. -/
  rules : ∀ rule ∈ outline.rules, rule.Balanced
  /-- The tape count fits 64 bits. -/
  tapes : ∀ header ∈ outline.headers, header.Fits

/-- The document that the outline describes. -/
def document : Document :=
  let heading := Heading.ofHeaders outline.headers
  let blank := heading.blank.getD '_'
  let wildcard := heading.wildcard.getD '*'
  let start := heading.start.getD (outline.blocks.head outline.someBlock).1
  let accept := heading.accept.getD []
  -- Values that are not declared are collected from their use, each where it occurs first.
  let states := start :: outline.blocks.map (·.1) ++ outline.rules.map (·.next) ++ accept
  let symbols := outline.rules.flatMap fun rule => rule.reads ++ rule.writes
  let alphabet := heading.alphabet.getD
    (heading.input.getD [] ++ symbols.filter (· != wildcard) ++ [blank]).eraseDups
  { name := String.ofList (heading.name.getD [])
    description := ""
    states := heading.states.getD states.eraseDups
    inputAlphabet := (heading.input.getD (alphabet.filter (· != blank))).map Char.toString
    tapeAlphabet := alphabet.map Char.toString
    tapeCount := heading.tapes.getD ((outline.rules.head?.map (·.reads.length)).getD 1)
    initialState := start
    acceptingStates := accept
    blank := blank.toString
    wildcard := wildcard.toString
    unchanged := wildcard.toString
    transitions := outline.blocks.map fun block =>
      (block.1, block.2.map fun rule =>
        (String.intercalate "," (rule.reads.map Char.toString),
          { write := rule.writes.map Char.toString
            move := rule.moves.map fun | .left => "L" | .right => "R" | .stay => "S"
            nextState := rule.next })) }

end Outline

/-- The written reads of a rule, with commas between them. -/
theorem ofList_intersperse (reads : List Char) :
    String.ofList (reads.intersperse ',') = String.intercalate "," (reads.map Char.toString) := by
  rw [← String.toList_inj, String.toList_ofList, String.toList_intercalate]
  induction reads with
  | nil => rfl
  | cons symbol reads ih =>
      cases reads with
      | nil => simp [List.intercalate, Char.toString_eq_singleton]
      | cons next reads =>
          rw [List.intersperse_cons_cons, ih]
          simp [List.intercalate_cons_cons, Char.toString_eq_singleton]

/-- The entry of a rule: its reads with commas between them, its writes, the letters of its movements
and its next state. -/
theorem RuleLine.entry_eq (rule : RuleLine) :
    rule.entry = (String.intercalate "," (rule.reads.map Char.toString),
      { write := rule.writes.map Char.toString
        move := rule.moves.map fun | .left => "L" | .right => "R" | .stay => "S"
        nextState := rule.next }) := by
  have letters : Direction.token = fun | .left => "L" | .right => "R" | .stay => "S" := by
    funext direction
    cases direction <;> rfl
  rw [entry, ofList_intersperse, letters]

/-- Leaving out what was seen is filtering it out before repetitions are erased. -/
theorem distinctAfter_eq_eraseDups {α : Type} [BEq α] [LawfulBEq α] (seen items : List α) :
    distinctAfter seen items = (items.filter (!seen.contains ·)).eraseDups := by
  induction items generalizing seen with
  | nil => rfl
  | cons item items ih =>
      rw [distinctAfter]
      split
      case isTrue known =>
          rw [ih, List.filter_cons_of_neg (by simpa using known)]
      case isFalse new =>
          rw [ih, List.filter_cons_of_pos (by simpa using new), List.eraseDups_cons,
            List.filter_filter]
          congr 3
          funext other
          simp [Bool.not_or]

/-- Later repetitions are erased. -/
theorem distinct_eq_eraseDups {α : Type} [BEq α] [LawfulBEq α] (items : List α) :
    distinct items = items.eraseDups := by
  rw [distinct, distinctAfter_eq_eraseDups]
  simp

namespace Outline

variable {outline : Outline}

/-- The declared initial state, or else the state of the first block. -/
theorem start_ofHeaders (outline : Outline) :
    (Heading.ofHeaders outline.headers).start.or (outline.blocks.head?.map (·.1)) =
      some outline.document.initialState := by
  have named : outline.document.initialState =
      (Heading.ofHeaders outline.headers).start.getD (outline.blocks.head outline.someBlock).1 := rfl
  rw [named, List.head?_eq_some_head outline.someBlock]
  cases (Heading.ofHeaders outline.headers).start <;> rfl

/-- The meaning of the declared values and of the blocks. -/
theorem toDocument_ofHeaders (outline : Outline) :
    (Heading.ofHeaders outline.headers).toDocument outline.document.initialState outline.blocks =
      outline.document := by
  have rules : rulesOf outline.blocks = outline.rules := rfl
  have entries : outline.blocks.map contentEntry = outline.document.transitions := by
    refine List.map_congr_left fun block _ => ?_
    rw [contentEntry, funext RuleLine.entry_eq]
  have tapes : inferTapes outline.blocks =
      (outline.rules.head?.map (·.reads.length)).getD 1 := by
    rw [inferTapes, rules]
    cases outline.rules <;> rfl
  simp only [Heading.toDocument, entries, inferStates, inferAlphabet, distinct_eq_eraseDups, rules,
    tapes]
  rfl

/-- A text in any layout of an outline is read as its document, if the outline is consistent. -/
theorem read_eq_ok {source : String} (laidOut : source.toList ∈ outline.layouts)
    {document : Document} :
    read source = .ok document ↔ outline.Consistent ∧ outline.document = document := by
  obtain ⟨program, parsed, headers, contents⟩ := parse_layout outline.someBlock
    outline.headersWritable outline.blocksWritable laidOut
  change program.contents = outline.blocks at contents
  have spelled := (plain_of_parse parsed).spelled
  have collected {heading : Heading} :
      (program.headers.map (·.item)).foldlM Heading.declare {} = .ok heading ↔
        (outline.headers.map Header.keyword).Nodup ∧ (∀ header ∈ outline.headers, header.Fits) ∧
          Heading.ofHeaders outline.headers = heading := by
    rw [← foldlM_declare_eq_ok outline.trimmed]
    apply Eq.congr_left
    apply foldlM_declare_congr
    rw [List.map_map]
    exact headers
  have balanced : (∀ content ∈ outline.blocks, ∀ rule ∈ content.2, rule.Balanced) ↔
      ∀ rule ∈ outline.rules, rule.Balanced := by
    rw [Outline.rules, List.forall_mem_flatMap]
  rw [Listing.read_eq_ok, parsed]
  simp only [Except.ok.injEq, exists_eq_left', Program.toDocument_eq_ok spelled, collected, contents,
    balanced]
  constructor
  · rintro ⟨_, ⟨kinds, fits, rfl⟩, states, rules, start, named, rfl⟩
    obtain rfl := Option.some.inj (outline.start_ofHeaders.symm.trans named)
    exact ⟨⟨kinds, states, rules, fits⟩, outline.toDocument_ofHeaders.symm⟩
  · rintro ⟨⟨kinds, states, rules, fits⟩, rfl⟩
    exact ⟨_, ⟨kinds, fits, rfl⟩, states, rules, _, outline.start_ofHeaders,
      outline.toDocument_ofHeaders⟩

end Outline

/-- Reading depends on what a listing says and not on its layout: a text in any layout of an outline
is read exactly when no header kind and no block is repeated, all rules are balanced and the tape
count fits, and then it is read as the document of the outline. -/
theorem reading_ignores_layout (outline : Outline) {source : String}
    (laidOut : source.toList ∈ outline.layouts) :
    ((∃ document, read source = .ok document) ↔ outline.Consistent) ∧
      (outline.Consistent → read source = .ok outline.document) := by
  refine ⟨?_, fun consistent => (Outline.read_eq_ok laidOut).mpr ⟨consistent, rfl⟩⟩
  constructor
  · rintro ⟨document, accepted⟩
    exact ((Outline.read_eq_ok laidOut).mp accepted).1
  · intro consistent
    exact ⟨_, (Outline.read_eq_ok laidOut).mpr ⟨consistent, rfl⟩⟩

/-- A rule that replaces a line end with a hyphen. -/
def RuleLine.joining : RuleLine where
  reads := ['\n']
  writes := ['-']
  moves := [.right]
  next := "h"

/-- An outline with one header, one block and one rule. -/
def Outline.joining : Outline where
  headers := [.accept ["h"]]
  blocks := [("s", [.joining])]
  headersWritable := by simp [Header.Writable, PlainName, NameChar]
  trimmed := by simp
  someBlock := by simp
  blocksWritable := by
    intro content member
    obtain rfl := List.mem_singleton.mp member
    refine ⟨by simp [PlainName, NameChar], fun rule inside => ?_⟩
    obtain rfl := List.mem_singleton.mp inside
    exact ⟨by simp [RuleLine.joining], by simp [RuleLine.joining, PlainName, NameChar]⟩

/-- A listing with as little space as possible, all three line ends and a quoted line end. -/
def joiningListing : String :=
  "accept:h#c\r\n\rrules:\ns:\n'\n'->-,>,h"

/-- The text is a layout of its outline, part by part. -/
theorem joiningListing_mem : joiningListing.toList ∈ Outline.joining.layouts := by
  have exactly (word : List Char) : word ∈ ({word} : Language Char) := rfl
  have last : [] ∈ (1 : Language Char) := rfl
  have none : [] ∈ Layout.gap := by
    intro c inside
    cases inside
  have nothing : [] ∈ Layout.lineRest := Language.append_mem_mul none (Or.inl rfl)
  have noLine : [] ∈ Layout.emptyLines := Language.nil_mem_kstar _
  have tight (mark : List Char) : [] ++ mark ++ [] ∈ Layout.spaced mark :=
    Language.append_mem_mul (Language.append_mem_mul none rfl) none
  have lineFeed : [] ++ ['\n'] ++ [] ++ [] ∈ Layout.lineBreak := by
    have ending : ['\n'] ∈ Layout.lineEnd := Or.inl rfl
    exact Language.append_mem_mul
      (Language.append_mem_mul (Language.append_mem_mul nothing ending) noLine) none
  have remark : ['#', 'c'] ++ ['\r', '\n'] ++ ['\r'] ++ [] ∈ Layout.lineBreak := by
    have comment : ['#', 'c'] ∈ Layout.lineRest :=
      Language.append_mem_mul none (Or.inr ⟨['c'], rfl, by simp [isLineEnd]⟩)
    have ending : ['\r', '\n'] ∈ Layout.lineEnd := Or.inr (Or.inl rfl)
    have line : ['\r'] ∈ Layout.lineRest * Layout.lineEnd :=
      Language.append_mem_mul nothing (Or.inr (Or.inr rfl))
    have blankLine : ['\r'] ∈ Layout.emptyLines :=
      Language.mem_kstar.mpr ⟨[['\r']], rfl, by simpa using line⟩
    exact Language.append_mem_mul
      (Language.append_mem_mul (Language.append_mem_mul comment ending) blankLine) none
  have header : "accept".toList ++ [':'] ++ [] ++ ['h'] ∈ Layout.header (.accept ["h"]) := by
    have value : ['h'] ∈ Layout.list Layout.name ["h"] := Or.inr ⟨"h", rfl, rfl⟩
    exact Language.append_mem_mul (Language.append_mem_mul rfl none) value
  have rule : ['\'', '\n', '\''] ++ ([] ++ ['-', '>'] ++ []) ++ ['-'] ++ ([] ++ [','] ++ []) ++
      ['>'] ++ ([] ++ [','] ++ []) ++ "h".toList ∈ Layout.rule .joining := by
    have reads : ['\'', '\n', '\''] ∈ Layout.list Layout.symbol ['\n'] :=
      Or.inr ⟨'\n', rfl, Or.inl rfl⟩
    have writes : ['-'] ∈ Layout.list Layout.symbol ['-'] :=
      Or.inr ⟨'-', rfl, Or.inr ⟨by decide, rfl⟩⟩
    have moves : ['>'] ∈ Layout.list Layout.move [.right] := Or.inr ⟨.right, rfl, Or.inr rfl⟩
    exact Language.append_mem_mul (Language.append_mem_mul (Language.append_mem_mul
      (Language.append_mem_mul (Language.append_mem_mul (Language.append_mem_mul reads
        (tight _)) writes) (tight _)) moves) (tight _)) rfl
  have block := Language.append_mem_mul
    (Language.append_mem_mul (Language.append_mem_mul (exactly ['s']) none) (exactly [':']))
    (Language.append_mem_mul (Language.append_mem_mul lineFeed rule) last)
  have whole := Language.append_mem_mul (Language.append_mem_mul (Language.append_mem_mul
    (Language.append_mem_mul (Language.append_mem_mul (Language.append_mem_mul noLine none)
      (Language.append_mem_mul (Language.append_mem_mul header remark) last))
        (exactly "rules:".toList))
    (Language.append_mem_mul (Language.append_mem_mul lineFeed block) last)) noLine) nothing
  refine (congrArg (· ∈ Outline.joining.layouts) ?_).mpr whole
  rfl

/-- The outline with one rule has no mistake. -/
theorem Outline.joining_consistent : Outline.joining.Consistent where
  headers := by decide
  blocks := by decide
  rules := by
    intro rule listed
    obtain rfl := List.mem_singleton.mp listed
    exact ⟨rfl, rfl⟩
  tapes := by
    rintro header listed digits rfl
    cases List.mem_singleton.mp listed

/-- A comment, three kinds of line ends and tokens without space between them are read past, and the
line end between quotes is read as a symbol. -/
theorem reading_ignores_joining_layout :
    joiningListing.toList ∈ Outline.joining.layouts ∧
      read joiningListing = .ok Outline.joining.document ∧
      Outline.joining.document.states = ["s", "h"] ∧
      Outline.joining.document.tapeAlphabet = ["\n", "-", "_"] ∧
      Outline.joining.document.transitions =
        [("s", [("\n", { write := ["-"], move := ["R"], nextState := "h" })])] := by
  have read := (reading_ignores_layout Outline.joining joiningListing_mem).2
  exact ⟨joiningListing_mem, read Outline.joining_consistent, by decide, by decide, by decide⟩

end TapeMachine.Listing
