import Mathlib.Computability.Language
import TapeMachine.Listing.Meaning
import TapeMachine.Proofs.Listing.Tokens

/-!
# Layouts

The texts that say the same, as formal languages: one language for each token, list, header, rule,
block and listing. The languages are written with union, concatenation and repetition only and do
not mention the phrases that read them. A layout chooses the space between tokens, the comments and
the blank lines, the line ends, the quotes of symbols, the brackets around single values and the
spelling of movements.

The second half says what skipping does to the space of a layout: on one line nothing but the end of
the line stops it (`dropFiller_lineRest_append`), and over lines it leads from one token to the next
(`nextToken_lineBreak_append`).
-/

namespace TapeMachine.Listing

open scoped Computability

namespace Layout

/-! ## Space -/

/-- Spaces and tabs, or nothing. -/
def gap : Language Char :=
  {space | ∀ c ∈ space, isFiller c}

/-- A comment, without the end of its line. -/
def comment : Language Char :=
  {remark | ∃ words, remark = '#' :: words ∧ ∀ c ∈ words, isLineEnd c = false}

/-- What may follow the last token of a line. -/
def lineRest : Language Char :=
  gap * (1 + comment)

/-- The end of a line in any of its three forms. -/
def lineEnd : Language Char :=
  {['\n'], ['\r', '\n'], ['\r']}

/-- Any number of lines that are blank or hold a comment only. -/
def emptyLines : Language Char :=
  (lineRest * lineEnd)∗

/-- From the last token of a line to the first token of a later one. -/
def lineBreak : Language Char :=
  lineRest * lineEnd * emptyLines * gap

/-- A mark with any space around it. -/
def spaced (mark : List Char) : Language Char :=
  gap * {mark} * gap

/-! ## Tokens and lists -/

/-- A symbol between quotes, or bare where no other token could start with it. -/
def symbol (c : Char) : Language Char :=
  {form | form = ['\'', c, '\''] ∨ isBareSymbol c ∧ form = [c]}

/-- A movement as a letter or as a sign. -/
def move : Direction → Language Char
  | .left => {['L'], ['<']}
  | .right => {['R'], ['>']}
  | .stay => {['S'], ['-']}

/-- A name as it is. -/
def name (state : String) : Language Char :=
  {state.toList}

section Lists

variable {α : Type} (item : α → Language Char)

/-- Values with commas between them. -/
def items : List α → Language Char
  | [] => 1
  | value :: values => item value * (values.map fun other => spaced [','] * item other).prod

/-- Values between brackets. -/
def bracketed (values : List α) : Language Char :=
  {['[']} * gap * items item values * gap * {[']']}

/-- Values between brackets, which a single value may go without. -/
def list (values : List α) : Language Char :=
  {form | form ∈ bracketed item values ∨ ∃ value, values = [value] ∧ form ∈ item value}

end Lists

/-! ## Programs -/

/-- The value of a header. -/
def headerValue : Header → Language Char
  | .name text => {text}
  | .tapes digits => {digits}
  | .blank c => symbol c
  | .wildcard c => symbol c
  | .states names => list name names
  | .input symbols => bracketed symbol symbols
  | .alphabet symbols => bracketed symbol symbols
  | .start state => name state
  | .accept names => list name names

/-- A header, without the rest of its line. -/
def header (declared : Header) : Language Char :=
  {declared.keyword.toList ++ [':']} * gap * headerValue declared

/-- A rule, without the rest of its line. -/
def rule (line : RuleLine) : Language Char :=
  list symbol line.reads * spaced ['-', '>'] * list symbol line.writes * spaced [','] *
    list move line.moves * spaced [','] * name line.next

/-- A state and its rules, without the rest of the last line. -/
def block (content : String × List RuleLine) : Language Char :=
  name content.1 * gap * {[':']} * (content.2.map fun line => lineBreak * rule line).prod

/-- A whole listing. -/
def listing (headers : List Header) (contents : List (String × List RuleLine)) : Language Char :=
  emptyLines * gap * (headers.map fun declared => header declared * lineBreak).prod *
    {"rules:".toList} * (contents.map fun content => lineBreak * block content).prod *
    emptyLines * lineRest

/-! ## Skipping space -/

variable {space rest : List Char}

/-- A gap has nothing in it that is not skipped. -/
theorem isFiller_of_mem_gap (member : space ∈ gap) {c : Char} (inside : c ∈ space) : isFiller c :=
  member c inside

/-- A gap is skipped on the same line. -/
theorem dropFiller_gap_append (member : space ∈ gap) (rest : List Char) :
    dropFiller (space ++ rest) = dropFiller rest := by
  induction space with
  | nil => rfl
  | cons c space ih =>
      have filler := isFiller_of_mem_gap member List.mem_cons_self
      rw [List.cons_append, dropFiller_cons_of_isFiller filler]
      exact ih fun d inside => isFiller_of_mem_gap member (List.mem_cons_of_mem c inside)

/-- A gap is skipped over lines. -/
theorem nextToken_gap_append (member : space ∈ gap) (rest : List Char) :
    nextToken (space ++ rest) = nextToken rest := by
  rw [← nextToken_dropFiller, dropFiller_gap_append member, nextToken_dropFiller]

/-- A spaced mark is a gap, the mark and a gap. -/
theorem exists_of_mem_spaced {mark form : List Char} (member : form ∈ spaced mark) :
    ∃ before ∈ gap, ∃ behind ∈ gap, form = before ++ (mark ++ behind) := by
  obtain ⟨_, isFirst, behind, isBehind, rfl⟩ := Language.mem_mul.mp member
  obtain ⟨before, isBefore, _, rfl, rfl⟩ := Language.mem_mul.mp isFirst
  exact ⟨before, isBefore, behind, isBehind, List.append_assoc _ _ _⟩

/-- A bracketed list is its items with a gap on each side, between brackets. -/
theorem exists_of_mem_bracketed {α : Type} {item : α → Language Char} {values : List α}
    {form : List Char} (member : form ∈ bracketed item values) :
    ∃ before ∈ gap, ∃ text ∈ items item values, ∃ behind ∈ gap,
      form = ['['] ++ (before ++ (text ++ (behind ++ [']']))) := by
  simp only [bracketed, mul_assoc, Language.mem_mul] at member
  obtain ⟨_, rfl, _, ⟨before, isBefore, _, ⟨text, isText, _, ⟨behind, isBehind, _, rfl, rfl⟩, rfl⟩,
    rfl⟩, rfl⟩ := member
  exact ⟨before, isBefore, text, isText, behind, isBehind, rfl⟩

/-- Nothing is left to skip where a line ends. -/
theorem dropFiller_eq_self (ends : ∀ c ∈ rest.head?, isLineEnd c) : dropFiller rest = rest := by
  cases rest with
  | nil => rfl
  | cons c rest =>
      apply dropFiller_cons
      rcases newline_cases (ends c rfl) with rfl | rfl <;> decide

/-- The rest of a line is skipped with its comment. -/
theorem dropFiller_lineRest_append (member : space ∈ lineRest)
    (ends : ∀ c ∈ rest.head?, isLineEnd c) : dropFiller (space ++ rest) = rest := by
  obtain ⟨blanks, isGap, remark, choice, rfl⟩ := Language.mem_mul.mp member
  rw [List.append_assoc, dropFiller_gap_append isGap]
  rcases choice with none | ⟨words, rfl, sameLine⟩
  · obtain rfl : remark = [] := none
    exact dropFiller_eq_self ends
  · have skipped : dropFiller ('#' :: words ++ rest) =
        (words ++ rest).dropWhile (!isLineEnd ·) := rfl
    rw [skipped]
    exact Text.dropWhile_run (fun c inside => by simp [sameLine c inside])
      fun c first => by simp [ends c first]

/-- The rest of a line leads to the token after the line. -/
theorem nextToken_lineRest_append (member : space ∈ lineRest)
    (ends : ∀ c ∈ rest.head?, isLineEnd c) : nextToken (space ++ rest) = nextToken rest := by
  rw [← nextToken_dropFiller, dropFiller_lineRest_append member ends]

/-- A line ends with a character that ends lines, and maybe one more. -/
theorem exists_cons_of_mem_lineEnd (member : space ∈ lineEnd) :
    ∃ c others, space = c :: others ∧ isLineEnd c ∧
      ∀ rest, nextToken (space ++ rest) = nextToken rest := by
  rcases member with rfl | rfl | rfl
  · exact ⟨'\n', [], rfl, by decide, fun rest => rfl⟩
  · exact ⟨'\r', ['\n'], rfl, by decide, fun rest => rfl⟩
  · exact ⟨'\r', [], rfl, by decide, fun rest => rfl⟩

/-- The rest of a line leads to its end, and from there to what follows. -/
theorem skip_line (member : space ∈ lineRest * lineEnd) (rest : List Char) :
    (∃ c others, dropFiller (space ++ rest) = c :: others ∧ isLineEnd c) ∧
      nextToken (space ++ rest) = nextToken rest := by
  obtain ⟨blanks, isRest, ending, isEnd, rfl⟩ := Language.mem_mul.mp member
  obtain ⟨c, others, rfl, ends, skips⟩ := exists_cons_of_mem_lineEnd isEnd
  have first : ∀ d ∈ (c :: others ++ rest).head?, isLineEnd d := by
    rintro d ⟨⟩
    exact ends
  rw [List.append_assoc, dropFiller_lineRest_append isRest first,
    nextToken_lineRest_append isRest first]
  exact ⟨⟨c, others ++ rest, rfl, ends⟩, skips rest⟩

/-- Empty lines lead to the token after them. -/
theorem nextToken_emptyLines_append (member : space ∈ emptyLines) (rest : List Char) :
    nextToken (space ++ rest) = nextToken rest := by
  obtain ⟨lines, rfl, isLine⟩ := Language.mem_kstar.mp member
  clear member
  induction lines with
  | nil => rfl
  | cons line lines ih =>
      have later : ∀ other ∈ lines, other ∈ lineRest * lineEnd :=
        fun other inside => isLine other (List.mem_cons_of_mem line inside)
      rw [List.flatten_cons, List.append_assoc, (skip_line (isLine line List.mem_cons_self) _).2]
      exact ih later

/-- A line break leads to the end of a line, and from there to what follows. -/
theorem skip_lineBreak (member : space ∈ lineBreak) (rest : List Char) :
    (∃ c others, dropFiller (space ++ rest) = c :: others ∧ isLineEnd c) ∧
      nextToken (space ++ rest) = nextToken rest := by
  obtain ⟨lines, isLines, blanks, isGap, rfl⟩ := Language.mem_mul.mp member
  obtain ⟨line, isLine, empty, isEmpty, rfl⟩ := Language.mem_mul.mp isLines
  have skipped := skip_line isLine (empty ++ (blanks ++ rest))
  rw [nextToken_emptyLines_append isEmpty, nextToken_gap_append isGap] at skipped
  simpa only [List.append_assoc] using skipped

/-- A line break leads to the token after it. -/
theorem nextToken_lineBreak_append (member : space ∈ lineBreak) (rest : List Char) :
    nextToken (space ++ rest) = nextToken rest :=
  (skip_lineBreak member rest).2

/-- After the last token of a text nothing but space is left. -/
theorem nextToken_emptyLines_lineRest {last : List Char} (isEmpty : space ∈ emptyLines)
    (isRest : last ∈ lineRest) : nextToken (space ++ last) = [] := by
  have ended := @nextToken_lineRest_append last [] isRest (by simp)
  rw [List.append_nil] at ended
  rw [nextToken_emptyLines_append isEmpty, ended]
  rfl

/-! ## What follows a token -/

/-- Nothing but space follows on the same line. -/
def EndsLine (rest : List Char) : Prop :=
  ∃ space ∈ gap, ∃ others, rest = space ++ others ∧ ∀ c ∈ others.head?, isTextChar c = false

/-- The rest of a line ends the line, with or without a comment. -/
theorem endsLine_lineRest_append (member : space ∈ lineRest)
    (ends : ∀ c ∈ rest.head?, isLineEnd c) : EndsLine (space ++ rest) := by
  obtain ⟨blanks, isGap, remark, choice, rfl⟩ := Language.mem_mul.mp member
  refine ⟨blanks, isGap, remark ++ rest, List.append_assoc _ _ _, ?_⟩
  rcases choice with none | ⟨words, rfl, -⟩
  · obtain rfl : remark = [] := none
    intro c first
    simp [isTextChar, ends c first]
  · rintro c ⟨⟩
    decide

/-- The rest of a line and its end leave nothing more on the line. -/
theorem endsLine_line_append (member : space ∈ lineRest * lineEnd) (rest : List Char) :
    EndsLine (space ++ rest) := by
  obtain ⟨blanks, isRest, ending, isEnd, rfl⟩ := Language.mem_mul.mp member
  obtain ⟨c, others, rfl, ends, -⟩ := exists_cons_of_mem_lineEnd isEnd
  rw [List.append_assoc]
  refine endsLine_lineRest_append isRest ?_
  rintro d ⟨⟩
  exact ends

/-- A line break leaves nothing more on the line where it starts. -/
theorem endsLine_lineBreak_append (member : space ∈ lineBreak) (rest : List Char) :
    EndsLine (space ++ rest) := by
  obtain ⟨lines, isLines, blanks, -, rfl⟩ := Language.mem_mul.mp member
  obtain ⟨line, isLine, empty, -, rfl⟩ := Language.mem_mul.mp isLines
  rw [List.append_assoc, List.append_assoc]
  exact endsLine_line_append isLine _

/-- The space at the end of a text leaves nothing more on the line where it starts. -/
theorem endsLine_emptyLines_lineRest {last : List Char} (isEmpty : space ∈ emptyLines)
    (isRest : last ∈ lineRest) : EndsLine (space ++ last) := by
  obtain ⟨lines, rfl, isLine⟩ := Language.mem_kstar.mp isEmpty
  cases lines with
  | nil =>
      have ended := @endsLine_lineRest_append last [] isRest (by simp)
      rwa [List.append_nil] at ended
  | cons line lines =>
      rw [List.flatten_cons, List.append_assoc]
      exact endsLine_line_append (isLine line List.mem_cons_self) _

/-- A gap ends a name, and without a gap what follows decides. -/
theorem bounded_gap_append (member : space ∈ gap) (bounded : Bounded rest) :
    Bounded (space ++ rest) := by
  cases space with
  | nil => exact bounded
  | cons c space =>
      apply bounded_cons
      have filler := isFiller_of_mem_gap member List.mem_cons_self
      simp only [isFiller, Bool.or_eq_true, beq_iff_eq] at filler
      rcases filler with rfl | rfl <;> decide

/-- No name goes on where a line ends. -/
theorem EndsLine.bounded (ends : EndsLine rest) : Bounded rest := by
  obtain ⟨space, isGap, others, rfl, stops⟩ := ends
  refine bounded_gap_append isGap fun c first => ?_
  by_contra nameChar
  have bare := isBareSymbol_of_isNameChar (by simpa using nameChar)
  have visible := stops c first
  simp only [isBareSymbol, Bool.not_eq_true', Bool.or_eq_false_iff] at bare
  simp [isTextChar, bare] at visible

/-- A text that starts with a token. -/
def StartsToken (form : List Char) : Prop :=
  ∃ c others, form = c :: others ∧ opensToken c ∧ isLineEnd c = false

/-- A token has a first character. -/
theorem StartsToken.ne_nil {form : List Char} (starts : StartsToken form) : form ≠ [] := by
  obtain ⟨c, others, rfl, -⟩ := starts
  simp

/-- What follows a token does not change where it starts. -/
theorem StartsToken.append {form : List Char} (starts : StartsToken form) (rest : List Char) :
    StartsToken (form ++ rest) := by
  obtain ⟨c, others, rfl, opens⟩ := starts
  exact ⟨c, others ++ rest, rfl, opens⟩

/-- There is nothing to skip on the line before a token. -/
theorem StartsToken.dropFiller_eq {form : List Char} (starts : StartsToken form) :
    dropFiller form = form := by
  obtain ⟨c, others, rfl, opens, -⟩ := starts
  exact dropFiller_cons opens others

/-- There is no line to skip before a token. -/
theorem StartsToken.nextToken_eq {form : List Char} (starts : StartsToken form) :
    nextToken form = form := by
  obtain ⟨c, others, rfl, opens, sameLine⟩ := starts
  exact nextToken_cons opens sameLine others

/-- A character that needs no quotes as a symbol starts a token. -/
theorem startsToken_of_isBareSymbol {c : Char} (bare : isBareSymbol c) (others : List Char) :
    StartsToken (c :: others) :=
  ⟨c, others, rfl, opensToken_of_isBareSymbol bare, isLineEnd_of_isBareSymbol bare⟩

end Layout

end TapeMachine.Listing
