import TapeMachine.CaseFile
import TapeMachine.Proofs.Text

/-!
# Case files are read back

A case is written as its tapes with semicolons between them and, after an arrow, its expectation.
Reading a file with one line for each case gives the cases back, whatever blank lines and remarks
stand between them (`readAll_of_holds`). The predicate `Case.Writable` says what the tapes and the
expectation must not hold for this.
-/

namespace TapeMachine

namespace Case

/-! ## What is written -/

/-- The tapes of a case as they are written. -/
def input (case : Case) : String :=
  Text.join ";" case.tapes

/-- The line of a case. -/
def line (case : Case) : String :=
  match case.expected with
  | none => case.input
  | some expected => case.input ++ " => " ++ expected

/-- The cases that a line can hold. Without an expectation the line must not look blank, and a
carriage return at its end would belong to the end of the line. -/
structure Writable (case : Case) : Prop where
  someTape : case.tapes ≠ []
  unsplit : ∀ tape ∈ case.tapes, ';' ∉ tape.toList ∧ '\n' ∉ tape.toList
  noArrow : ∀ tape ∈ case.tapes, ¬ ['=', '>'] <:+: tape.toList
  noRemark : (Text.trimStart case.input.toList).head? ≠ some '#'
  alone : case.expected = none →
    (∃ c ∈ case.input.toList, Text.isBlank c = false) ∧ case.input.toList.getLast? ≠ some '\r'
  expecting : ∀ expected, case.expected = some expected →
    Text.trimEnd case.input.toList = case.input.toList ∧
      Text.trim expected.toList = expected.toList ∧ '\n' ∉ expected.toList

/-- A line that holds no case: it is blank, or it starts with a number sign. -/
structure IsRemark (text : String) : Prop where
  single : '\n' ∉ text.toList
  silent : (∀ c ∈ text.toList, Text.isBlank c) ∨ (Text.trimStart text.toList).head? = some '#'

/-- The lines of a file that holds these cases in this order. -/
inductive Holds : List String → List Case → Prop where
  | nil : Holds [] []
  | case {case : Case} {lines : List String} {cases : List Case} (writable : case.Writable)
      (rest : Holds lines cases) : Holds (case.line :: lines) (case :: cases)
  | remark {text : String} {lines : List String} {cases : List Case} (remark : IsRemark text)
      (rest : Holds lines cases) : Holds (text :: lines) cases

/-! ## Which lines are ignored -/

/-- The lines without a case are the blank ones and the comments. -/
theorem isIgnored_eq_true {line : List Char} :
    isIgnored line = true ↔
      (∀ c ∈ line, Text.isBlank c) ∨ (Text.trimStart line).head? = some '#' := by
  rw [← List.dropWhile_eq_nil_iff, ← Text.trimStart, isIgnored]
  cases Text.trimStart line <;> simp

/-- White space at the end of a line does not change whether it is ignored. -/
theorem isIgnored_append {space : List Char} (blank : ∀ c ∈ space, Text.isBlank c)
    (line : List Char) : isIgnored (line ++ space) = isIgnored line := by
  rw [isIgnored, isIgnored, Text.trimStart, Text.trimStart, List.dropWhile_append,
    List.dropWhile_eq_nil_iff.mpr blank]
  cases List.dropWhile Text.isBlank line <;> rfl

/-- A carriage return at its end does not give a line a case. -/
theorem isIgnored_dropReturn (line : List Char) :
    isIgnored (Text.dropReturn line) = isIgnored line := by
  rw [Text.dropReturn]
  split
  case isTrue ends =>
      conv_rhs => rw [← List.dropLast_append_getLast? '\r' ends]
      exact (isIgnored_append (by simp [Text.isBlank]) _).symm
  case isFalse => rfl

/-- Remarks are lines without a case. -/
theorem IsRemark.isIgnored {text : String} (remark : IsRemark text) :
    Case.isIgnored text.toList = true :=
  isIgnored_eq_true.mpr remark.silent

/-! ## Where an arrow is found -/

/-- A text without an arrow is not split. -/
theorem splitArrow_eq_none {before line : List Char} (noArrow : ¬ ['=', '>'] <:+: line) :
    splitArrow before line = none := by
  fun_induction splitArrow before line with
  | case1 before rest => exact absurd (List.prefix_append _ rest).isInfix noArrow
  | case2 before c rest other ih =>
      exact ih fun later => noArrow (later.trans (List.suffix_cons c rest).isInfix)
  | case3 => rfl

/-- A line is split at an arrow if no arrow starts before it. -/
theorem splitArrow_append {before input : List Char} (rest : List Char)
    (noArrow : ¬ ['=', '>'] <:+: input ++ ['=']) :
    splitArrow before (input ++ '=' :: '>' :: rest) = some (before.reverse ++ input, rest) := by
  induction input generalizing before with
  | nil => simp [splitArrow]
  | cons c input ih =>
      have later : ¬ ['=', '>'] <:+: input ++ ['='] := fun found =>
        noArrow (found.trans (List.suffix_cons c _).isInfix)
      have other : ∀ tail, c = '=' → input ++ '=' :: '>' :: rest ≠ '>' :: tail := by
        rintro tail rfl starts
        cases input with
        | nil => simp at starts
        | cons next input =>
            obtain rfl := (List.cons.inj starts).1
            exact noArrow (List.prefix_append ['=', '>'] (input ++ ['='])).isInfix
      rw [List.cons_append, splitArrow]
      case x_1 => exact fun tail equal starts => other tail equal starts
      rw [ih later]
      simp

/-- An arrow does not extend over a character that is no part of it. -/
theorem arrow_infix_append {left right : List Char} {c : Char} (apart : c ≠ '=' ∧ c ≠ '>') :
    ['=', '>'] <:+: left ++ c :: right ↔ ['=', '>'] <:+: left ∨ ['=', '>'] <:+: right := by
  constructor
  · rw [List.infix_append_iff_ne_nil, List.infix_cons_iff, List.cons_prefix_cons]
    rintro (inLeft | (⟨same, -⟩ | inRight) | ⟨first, second, -, nonempty, whole, -, starts⟩)
    · exact .inl inLeft
    · exact absurd same.symm apart.1
    · exact .inr inRight
    · obtain ⟨d, others, rfl⟩ := List.exists_cons_of_ne_nil nonempty
      obtain rfl := (List.cons_prefix_cons.mp starts).1
      have member : d ∈ ['=', '>'] := by simp [whole]
      simp [apart] at member
  · rintro (inLeft | inRight)
    · exact inLeft.trans (List.prefix_append left _).isInfix
    · exact inRight.trans ((List.suffix_cons c right).trans (List.suffix_append left _)).isInfix

/-! ## Reading a line back -/

/-- What holds of every text, and of two texts joined by a separator if it holds of both, holds of
all texts joined by it. -/
theorem intercalate_of_forall {separator : Char} {texts : List (List Char)}
    (holds : List Char → Prop) (empty : holds [])
    (join : ∀ left right, holds left → holds right → holds (left ++ separator :: right))
    (each : ∀ text ∈ texts, holds text) : holds ([separator].intercalate texts) := by
  induction texts with
  | nil => exact empty
  | cons text texts ih =>
      rw [List.forall_mem_cons] at each
      cases texts with
      | nil => simpa [List.intercalate] using each.1
      | cons next texts =>
          rw [List.intercalate_cons_cons, List.append_assoc]
          exact join text _ each.1 (ih each.2)

/-- The text of the tapes is their texts with semicolons between them. -/
theorem toList_input (case : Case) :
    case.input.toList = [';'].intercalate (case.tapes.map String.toList) := by
  rw [input, Text.join, String.toList_intercalate]
  rfl

/-- The line of a case without expectation is the text of its tapes. -/
theorem line_of_alone {case : Case} (alone : case.expected = none) : case.line = case.input := by
  rw [line, alone]

/-- The line of another case goes on with an arrow and the expectation. -/
theorem toList_line_of_expected {case : Case} {expected : String}
    (expects : case.expected = some expected) :
    case.line.toList = case.input.toList ++ [' '] ++ '=' :: '>' :: ' ' :: expected.toList := by
  simp [line, expects]

namespace Writable

variable {case : Case}

/-- The tapes are read back from their text. -/
theorem readTapes_input (writable : case.Writable) : readTapes case.input.toList = case.tapes := by
  have apart : ∀ tape ∈ case.tapes.map String.toList, ';' ∉ tape :=
    List.forall_mem_map.mpr fun tape listed => (writable.unsplit tape listed).1
  have someTape : case.tapes.map String.toList ≠ [] := by simpa using writable.someTape
  rw [readTapes, toList_input, Text.splitOn_eq_splitOn,
    List.splitOn_intercalate ';' apart someTape, List.map_map]
  simp [Function.comp_def]

/-- There is no arrow in the text of the tapes, whose own texts have none. -/
theorem noArrow_input (writable : case.Writable) : ¬ ['=', '>'] <:+: case.input.toList := by
  rw [toList_input]
  refine intercalate_of_forall (¬ ['=', '>'] <:+: ·) (by decide) ?_
    (List.forall_mem_map.mpr writable.noArrow)
  intro left right inLeft inRight
  rw [arrow_infix_append (by decide)]
  exact not_or.mpr ⟨inLeft, inRight⟩

/-- A case is written on a single line. -/
theorem single_line (writable : case.Writable) : '\n' ∉ case.line.toList := by
  have input : '\n' ∉ case.input.toList := by
    rw [toList_input]
    refine intercalate_of_forall ('\n' ∉ ·) List.not_mem_nil ?_
      (List.forall_mem_map.mpr fun tape listed => (writable.unsplit tape listed).2)
    intro left right inLeft inRight
    simp [inLeft, inRight]
  cases expects : case.expected with
  | none => rwa [line_of_alone expects]
  | some expected =>
      have single := (writable.expecting expected expects).2.2
      simp [toList_line_of_expected expects, input, single]

/-- The line of a case does not end in a carriage return. -/
theorem dropReturn_line (writable : case.Writable) :
    Text.dropReturn case.line.toList = case.line.toList := by
  refine if_neg ?_
  cases expects : case.expected with
  | none => exact line_of_alone expects ▸ (writable.alone expects).2
  | some expected =>
      have visible := Text.getLast?_trimEnd (Text.trimStart expected.toList)
      rw [← Text.trim, (writable.expecting expected expects).2.1] at visible
      rw [toList_line_of_expected expects]
      cases last : expected.toList.getLast? with
      | none => simp [List.getLast?_cons, last]
      | some c =>
          intro ends
          obtain rfl : c = '\r' := by simpa [List.getLast?_cons, last] using ends
          exact absurd (visible _ last) (by decide)

/-- The line of a case is not ignored. -/
theorem isIgnored_line (writable : case.Writable) : isIgnored case.line.toList = false := by
  rw [Bool.eq_false_iff, ne_eq, isIgnored_eq_true, not_or]
  cases expects : case.expected with
  | none =>
      rw [line_of_alone expects]
      exact ⟨by simpa using (writable.alone expects).1, writable.noRemark⟩
  | some expected =>
      rw [toList_line_of_expected expects]
      refine ⟨fun blank => absurd (blank '=' (by simp)) (by decide), ?_⟩
      have noRemark := writable.noRemark
      rw [List.append_assoc, Text.trimStart, List.dropWhile_append]
      rw [Text.trimStart] at noRemark
      cases visible : List.dropWhile Text.isBlank case.input.toList with
      | nil => simp [Text.isBlank]
      | cons c rest => simpa [visible] using noRemark

/-- The line of a case is read as the case. -/
theorem ofLine_line (writable : case.Writable) : ofLine case.line.toList = case := by
  obtain ⟨tapes, expected⟩ := case
  cases expected with
  | none =>
      rw [line_of_alone rfl, ofLine, splitArrow_eq_none writable.noArrow_input]
      exact congrArg (Case.mk · none) writable.readTapes_input
  | some expected =>
      obtain ⟨trimmedInput, trimmedOutput, -⟩ := writable.expecting expected rfl
      have noArrow : ¬ ['=', '>'] <:+: (input ⟨tapes, some expected⟩).toList ++ [' '] ++ ['='] := by
        rw [List.append_assoc, List.singleton_append, arrow_infix_append (by decide)]
        exact not_or.mpr ⟨writable.noArrow_input, by decide⟩
      rw [toList_line_of_expected rfl, ofLine, splitArrow_append _ noArrow]
      have output : Text.trim (' ' :: expected.toList) = expected.toList := trimmedOutput
      simp only [List.reverse_nil, List.nil_append]
      rw [Text.trimEnd_append (by simp [Text.isBlank]), trimmedInput, writable.readTapes_input,
        output, String.ofList_toList]

end Writable

/-! ## Reading a file back -/

/-- Each line that holds cases or remarks is a single one. -/
theorem Holds.single {lines : List String} {cases : List Case} (holds : Holds lines cases) :
    ∀ line ∈ lines, '\n' ∉ line.toList := by
  induction holds with
  | nil => simp
  | case writable _ ih => exact List.forall_mem_cons.mpr ⟨writable.single_line, ih⟩
  | remark remark _ ih => exact List.forall_mem_cons.mpr ⟨remark.single, ih⟩

/-- The cases that were written are read, in their order, and nothing else is. -/
theorem readAll_of_holds {lines : List String} {cases : List Case} (holds : Holds lines cases) :
    readAll (Text.unlines lines) = cases := by
  rw [readAll, Text.lines_unlines holds.single]
  induction holds with
  | nil => rfl
  | case writable _ ih =>
      rw [List.map_cons, writable.dropReturn_line,
        List.filter_cons_of_pos (by simp [writable.isIgnored_line]), List.map_cons,
        writable.ofLine_line, ih]
  | remark remark _ ih =>
      rw [List.map_cons,
        List.filter_cons_of_neg (by simp [isIgnored_dropReturn, remark.isIgnored]), ih]

/-- An arrow and a semicolon inside an expectation, an empty tape, a line that only looks empty and
a remark that looks like a case. -/
theorem readAll_of_mixed_lines :
    Holds ["3#A; _ => b=>;c", " \t\r", " # 3#A => b", ";x"]
        [⟨["3#A", " _"], some "b=>;c"⟩, ⟨["", "x"], none⟩] ∧
      readAll (Text.unlines ["3#A; _ => b=>;c", " \t\r", " # 3#A => b", ";x"]) =
        [⟨["3#A", " _"], some "b=>;c"⟩, ⟨["", "x"], none⟩] := by
  have expecting : Writable ⟨["3#A", " _"], some "b=>;c"⟩ :=
    { someTape := by decide
      unsplit := by decide
      noArrow := by decide
      noRemark := by decide
      alone := nofun
      expecting := by rintro _ ⟨⟩; decide }
  have alone : Writable ⟨["", "x"], none⟩ :=
    { someTape := by decide
      unsplit := by decide
      noArrow := by decide
      noRemark := by decide
      alone := fun _ => ⟨⟨'x', by decide, by decide⟩, by decide⟩
      expecting := nofun }
  have blank : IsRemark " \t\r" := ⟨by decide, .inl (by simp [Text.isBlank])⟩
  have remark : IsRemark " # 3#A => b" := ⟨by decide, .inr (by decide)⟩
  have holds := Holds.case expecting (.remark blank (.remark remark (.case alone .nil)))
  exact ⟨holds, readAll_of_holds holds⟩

end Case

end TapeMachine
