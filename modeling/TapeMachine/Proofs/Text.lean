import Mathlib.Data.List.DropRight
import Mathlib.Data.List.TakeWhile
import TapeMachine.Text.Blank
import TapeMachine.Text.Lines

/-!
# Parts of texts

A run of characters that satisfy a condition is taken whole, and nothing else is, where what follows
does not continue it. Trimming a text twice is trimming it once, and white space added at its end is
trimmed with it. Texts that were put on lines of their own are found there again (`lines_unlines`).
-/

namespace TapeMachine.Text

variable {condition : Char → Bool} {taken rest : List Char}

/-- The longest run of characters ends where the condition first fails. -/
theorem takeWhile_run (satisfied : ∀ c ∈ taken, condition c)
    (bounded : ∀ c ∈ rest.head?, condition c = false) :
    (taken ++ rest).takeWhile condition = taken := by
  have none : rest.takeWhile condition = [] := by
    cases rest with
    | nil => rfl
    | cons c rest => exact List.takeWhile_cons_of_neg (by simp [bounded c rfl])
  rw [List.takeWhile_append_of_pos satisfied, none, List.append_nil]

/-- Behind the longest run stands what fails the condition first. -/
theorem dropWhile_run (satisfied : ∀ c ∈ taken, condition c)
    (bounded : ∀ c ∈ rest.head?, condition c = false) :
    (taken ++ rest).dropWhile condition = rest := by
  have all : rest.dropWhile condition = rest := by
    cases rest with
    | nil => rfl
    | cons c rest => exact List.dropWhile_cons_of_neg (by simp [bounded c rfl])
  rw [List.dropWhile_append_of_pos satisfied, all]

/-! ## Trimming -/

theorem head?_trimStart (text : List Char) : ∀ c ∈ (trimStart text).head?, isBlank c = false := by
  intro c first
  have visible := List.head?_dropWhile_not isBlank text
  rw [trimStart] at first
  rw [Option.mem_def.mp first] at visible
  simpa using visible

/-- A text that is trimmed at its end does not end in white space. -/
theorem getLast?_trimEnd (text : List Char) :
    ∀ c ∈ (trimEnd text).getLast?, isBlank c = false := by
  intro c last
  rw [trimEnd, List.getLast?_reverse] at last
  exact head?_trimStart text.reverse c last

/-- Trimming the end of a text keeps its first character, if any is left. -/
theorem head?_trimEnd {text : List Char} {c : Char} (first : c ∈ (trimEnd text).head?) :
    c ∈ text.head? := by
  obtain ⟨removed, whole⟩ := List.rdropWhile_prefix isBlank text
  change trimEnd text ++ removed = text at whole
  rw [← whole, Option.mem_def, List.head?_append, Option.mem_def.mp first]
  rfl

/-- A trimmed text does not start with white space. -/
theorem head?_trim (text : List Char) : ∀ c ∈ (trim text).head?, isBlank c = false :=
  fun c first => head?_trimStart text c (head?_trimEnd first)

theorem trimStart_eq_self {text : List Char}
    (visible : ∀ c ∈ text.head?, isBlank c = false) : trimStart text = text := by
  cases text with
  | nil => rfl
  | cons c rest => exact List.dropWhile_cons_of_neg (by simp [visible c rfl])

/-- Trimming twice is trimming once. -/
@[simp]
theorem trim_trim (text : List Char) : trim (trim text) = trim text := by
  rw [trim, trimStart_eq_self (head?_trim text)]
  exact List.rdropWhile_idempotent isBlank (trimStart text)

/-- White space at the end does not matter once the end is trimmed. -/
theorem trimEnd_append {space : List Char} (blank : ∀ c ∈ space, isBlank c) (text : List Char) :
    trimEnd (text ++ space) = trimEnd text := by
  have blanks : ∀ c ∈ space.reverse, isBlank c :=
    fun c inside => blank c (List.mem_reverse.mp inside)
  rw [trimEnd, List.reverse_append, List.dropWhile_append_of_pos blanks, trimEnd]

/-- White space at the end of a text does not change what is left of it. -/
theorem trim_append {space : List Char} (blank : ∀ c ∈ space, isBlank c) (text : List Char) :
    trim (text ++ space) = trim text := by
  rw [trim, trim, trimStart, trimStart, List.dropWhile_append]
  split
  case isTrue empty =>
      rw [List.isEmpty_iff.mp empty, List.dropWhile_eq_nil_iff.mpr blank]
  case isFalse => exact trimEnd_append blank _

theorem mem_of_mem_trim {text : List Char} {c : Char} (member : c ∈ trim text) : c ∈ text := by
  have ended := List.rdropWhile_prefix isBlank (trimStart text)
  have started : (trimStart text).Sublist text := List.dropWhile_sublist isBlank
  exact started.subset (ended.subset member)

/-! ## Splitting -/

/-- Texts are split as lists are. -/
theorem splitOn_eq_splitOn (separator : Char) (text : List Char) :
    splitOn separator text = text.splitOn separator := by
  induction text with
  | nil => rfl
  | cons c text ih =>
      rw [splitOn_cons, List.splitOn_cons_eq_if_modifyHead, ih]
      by_cases same : c = separator
      · simp [same]
      · obtain ⟨word, words, split⟩ :=
          List.exists_cons_of_ne_nil (List.splitOn_ne_nil separator text)
        simp [same, split, consWord]

/-- The first word stands before the first separator. -/
theorem splitOn_append_cons {separator : Char} {word : List Char} (absent : separator ∉ word)
    (text : List Char) :
    splitOn separator (word ++ separator :: text) = word :: splitOn separator text := by
  simp only [splitOn_eq_splitOn]
  exact List.splitOn_append_cons_self_of_not_mem absent text

theorem toList_unlines (texts : List String) :
    (unlines texts).toList = texts.flatMap fun text => text.toList ++ ['\n'] := by
  rw [unlines, String.toList_join, List.flatMap_map]
  exact List.flatMap_congr fun text _ => by simp [line]

/-- Texts without line feeds are the lines of the text that has each on a line of its own, up to the
carriage returns at their ends. -/
theorem lines_unlines {texts : List String} (single : ∀ text ∈ texts, '\n' ∉ text.toList) :
    lines (unlines texts).toList = texts.map fun text => dropReturn text.toList := by
  have pieces : splitOn '\n' (unlines texts).toList = texts.map String.toList ++ [[]] := by
    rw [toList_unlines]
    induction texts with
    | nil => rfl
    | cons text texts ih =>
        rw [List.forall_mem_cons] at single
        rw [List.flatMap_cons, List.append_assoc, List.singleton_append,
          splitOn_append_cons single.1, ih single.2]
        rfl
  rw [lines, pieces]
  simp [Function.comp_def]

end TapeMachine.Text
