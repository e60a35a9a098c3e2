import Mathlib.Order.Bounds.Basic
import TapeMachine.Tape

/-!
# The symbols on a tape

`Tape.symbolAt` reads a tape at any position, laid out or not. Every operation is described by what
it does to these symbols, to the head and to the extent, so nothing below looks at the cells again.
`Tape.Sound` is the invariant that makes the view agree with the cells, and the two forms of
`Tape.content` are prefixes of the view.
-/

namespace TapeMachine.Tape

variable {tape : Tape} {content : List Char} {blank symbol : Char} {direction : Direction}

/-- The symbol at a position; cells that are not laid out hold the blank. -/
def symbolAt (tape : Tape) (position : Nat) : Char :=
  tape.cells.getD position tape.blank

/-- The head is on a visited cell, visited cells are laid out, and the others are blank. -/
structure Sound (tape : Tape) : Prop where
  head : tape.head < tape.extent
  extent : tape.extent ≤ tape.capacity
  tail : ∀ position, tape.extent ≤ position → tape.symbolAt position = tape.blank

theorem read_eq_symbolAt : tape.read = tape.symbolAt tape.head := rfl

/-- A cell that is laid out holds the symbol at its position. -/
theorem getElem?_cells {position : Nat} (inside : position < tape.capacity) :
    tape.cells[position]? = some (tape.symbolAt position) := by
  have laidOut : position < tape.cells.size := inside
  rw [symbolAt, Array.getD_eq_getD_getElem?, Array.getElem?_eq_getElem laidOut, Option.getD_some]

@[simp]
theorem head_ofList : (ofList content blank).head = 0 := rfl

@[simp]
theorem extent_ofList : (ofList content blank).extent = max content.length 1 := rfl

@[simp]
theorem blank_ofList : (ofList content blank).blank = blank := rfl

/-- A seeded tape holds its content, followed by blanks. -/
@[simp]
theorem symbolAt_ofList (position : Nat) :
    (ofList content blank).symbolAt position = content.getD position blank := by
  simp only [symbolAt, ofList, Array.getD_eq_getD_getElem?, Array.getElem?_append,
    List.getD_eq_getElem?_getD]
  by_cases inside : position < content.length
  · simp [inside]
  · simp only [List.size_toArray, inside, if_false, Array.getElem?_replicate]
    rw [List.getElem?_eq_none (by omega)]
    split <;> rfl

/-- A seeded tape shows the first symbol of its content. -/
theorem read_ofString (content : String) (blank : Char) :
    (ofString content blank).read = content.toList.getD 0 blank := by
  rw [read_eq_symbolAt, ofString, symbolAt_ofList, head_ofList]

@[simp]
theorem head_write : (tape.write symbol).head = tape.head := rfl

@[simp]
theorem extent_write : (tape.write symbol).extent = tape.extent := rfl

@[simp]
theorem blank_write : (tape.write symbol).blank = tape.blank := rfl

@[simp]
theorem capacity_write : (tape.write symbol).capacity = tape.capacity := by
  simp [write, capacity]

/-- Writing changes the symbol under the head and no other. -/
theorem symbolAt_write (sound : tape.Sound) (position : Nat) :
    (tape.write symbol).symbolAt position =
      if position = tape.head then symbol else tape.symbolAt position := by
  have laidOut : tape.head < tape.cells.size := Nat.lt_of_lt_of_le sound.head sound.extent
  simp only [symbolAt, write, Array.getD_eq_getD_getElem?, Array.getElem?_setIfInBounds]
  by_cases here : position = tape.head
  · simp [here, laidOut]
  · simp [here, Ne.symm here]

@[simp]
theorem head_shift : (tape.shift direction).head = moveHead tape.head direction := rfl

/-- A head moves by one cell at most. -/
theorem moveHead_le (head : Nat) (direction : Direction) : moveHead head direction ≤ head + 1 := by
  cases direction <;> simp only [moveHead] <;> omega

@[simp]
theorem extent_shift :
    (tape.shift direction).extent = max tape.extent (moveHead tape.head direction + 1) := rfl

@[simp]
theorem blank_shift : (tape.shift direction).blank = tape.blank := rfl

/-- A tape that does not reach as far as the head is laid out a block beyond it. -/
theorem size_grow (cells : Array Char) (head : Nat) (blank : Char) :
    (grow cells head blank).size = if head < cells.size then cells.size else head + blockSize := by
  rw [grow]
  split
  · rfl
  · simp only [Array.size_append, Array.size_replicate]
    omega

/-- Growing a tape lays out enough cells for the head. -/
theorem lt_size_grow (cells : Array Char) (head : Nat) (blank : Char) :
    head < (grow cells head blank).size := by
  rw [size_grow]
  split
  · assumption
  · simp [blockSize]

/-- Growing does not remove cells. -/
theorem size_le_size_grow (cells : Array Char) (head : Nat) (blank : Char) :
    cells.size ≤ (grow cells head blank).size := by
  rw [size_grow]
  split <;> omega

/-- Moving the head changes no symbol, whether or not the tape grows. -/
@[simp]
theorem symbolAt_shift (position : Nat) :
    (tape.shift direction).symbolAt position = tape.symbolAt position := by
  simp only [symbolAt, shift, grow]
  split
  · rfl
  · simp only [Array.getD_eq_getD_getElem?, Array.getElem?_append]
    by_cases inside : position < tape.cells.size
    · simp [inside]
    · simp only [inside, if_false, Array.getElem?_replicate]
      rw [Array.getElem?_eq_none (by omega)]
      split <;> rfl

/-- A seeded tape is sound. -/
theorem sound_ofList (content : List Char) (blank : Char) : (ofList content blank).Sound where
  head := by
    simp only [head_ofList, extent_ofList]
    omega
  extent := by
    simp only [capacity, ofList, Array.size_append, List.size_toArray,
      Array.size_replicate, blockSize]
    omega
  tail position beyond := by
    rw [extent_ofList] at beyond
    rw [symbolAt_ofList, blank_ofList, List.getD_eq_getElem?_getD,
      List.getElem?_eq_none (by omega), Option.getD_none]

/-- Writing keeps a tape sound. -/
theorem Sound.write (sound : tape.Sound) (symbol : Char) : (tape.write symbol).Sound where
  head := sound.head
  extent := by
    rw [extent_write, capacity_write]
    exact sound.extent
  tail position beyond := by
    rw [extent_write] at beyond
    have apart : position ≠ tape.head := Nat.ne_of_gt (Nat.lt_of_lt_of_le sound.head beyond)
    rw [symbolAt_write sound, if_neg apart, blank_write]
    exact sound.tail position beyond

/-- Moving the head keeps a tape sound, since cells are laid out for it. -/
theorem Sound.shift (sound : tape.Sound) (direction : Direction) :
    (tape.shift direction).Sound where
  head := by
    rw [head_shift, extent_shift]
    omega
  extent := by
    rw [extent_shift]
    have before : tape.extent ≤ tape.cells.size := sound.extent
    have kept := size_le_size_grow tape.cells (moveHead tape.head direction) tape.blank
    have reached := lt_size_grow tape.cells (moveHead tape.head direction) tape.blank
    change _ ≤ (grow tape.cells (moveHead tape.head direction) tape.blank).size
    omega
  tail position beyond := by
    rw [extent_shift] at beyond
    rw [symbolAt_shift, blank_shift]
    exact sound.tail position (by omega)

/-- The visited cells are the symbols up to the extent. -/
theorem visited_eq (sound : tape.Sound) :
    tape.visited = (List.range tape.extent).map tape.symbolAt := by
  have laidOut : tape.extent ≤ tape.cells.size := sound.extent
  apply List.ext_getElem?
  intro position
  rw [visited, Array.getElem?_toList, Array.getElem?_extract, List.getElem?_map]
  by_cases inside : position < tape.extent
  · have present : position < tape.cells.size := by omega
    rw [List.getElem?_range inside]
    simp only [Option.map_some, symbolAt, Array.getD_eq_getD_getElem?, Nat.zero_add]
    rw [if_pos (by omega), Array.getElem?_eq_getElem present, Option.getD_some]
  · rw [List.getElem?_eq_none (by simpa using inside), if_neg (by omega)]
    rfl

/-- The lengths of the prefixes of a tape that hold all its symbols other than the blank. -/
def coveringLengths (blank : Char) (symbols : Nat → Char) : Set Nat :=
  {length | ∀ position, length ≤ position → symbols position = blank}

@[simp]
theorem trimBlanks_append_singleton (blank last : Char) (word : List Char) :
    trimBlanks blank (word ++ [last]) =
      if last = blank then trimBlanks blank word else word ++ [last] := by
  by_cases same : last = blank
  · simp [trimBlanks, same]
  · simp [trimBlanks, same]

/-- A blank at the end of a word does not change which symbol stands where. -/
theorem getD_append_blank (word : List Char) (blank : Char) (position : Nat) :
    (word ++ [blank]).getD position blank = word.getD position blank := by
  rw [List.getD_eq_getElem?_getD, List.getD_eq_getElem?_getD]
  rcases Nat.lt_trichotomy position word.length with inside | rfl | behind
  · rw [List.getElem?_append_left inside]
  · simp
  · rw [List.getElem?_eq_none (by simpa using Nat.succ_le_of_lt behind),
      List.getElem?_eq_none behind.le]

/-- A word without blanks is left as it is. -/
theorem trimBlanks_eq_self {blank : Char} {word : List Char} (absent : blank ∉ word) :
    trimBlanks blank word = word := by
  obtain rfl | ⟨front, last, rfl⟩ := List.eq_nil_or_concat word
  · rfl
  · rw [List.concat_eq_append, trimBlanks_append_singleton, if_neg]
    rintro rfl
    exact absent (by simp)

/-- Removing the blanks at the end of a prefix that holds everything leaves the shortest prefix
that holds everything. -/
theorem trimBlanks_covering {blank : Char} {symbols : Nat → Char} {length : Nat}
    (covering : length ∈ coveringLengths blank symbols) :
    ∃ shortest, trimBlanks blank ((List.range length).map symbols) =
        (List.range shortest).map symbols ∧
      IsLeast (coveringLengths blank symbols) shortest := by
  induction length with
  | zero => exact ⟨0, rfl, covering, fun _ _ => Nat.zero_le _⟩
  | succ length ih =>
      rw [List.range_succ, List.map_append, List.map_singleton, trimBlanks_append_singleton]
      split
      · next last =>
          apply ih
          intro position beyond
          rcases Nat.eq_or_lt_of_le beyond with rfl | later
          · exact last
          · exact covering position later
      · next last =>
          refine ⟨length + 1, by rw [List.range_succ, List.map_append, List.map_singleton],
            covering, fun shorter covers => ?_⟩
          by_contra less
          exact last (covers length (by omega))

/-- The content of a tape is the part of it up to its extent. -/
theorem content_false (sound : tape.Sound) :
    tape.content false = String.ofList ((List.range tape.extent).map tape.symbolAt) := by
  rw [content, visited_eq sound]
  rfl

/-- The trimmed content of a tape is the shortest part of it that holds everything but blanks. -/
theorem content_true (sound : tape.Sound) :
    ∃ shortest, tape.content true = String.ofList ((List.range shortest).map tape.symbolAt) ∧
      IsLeast (coveringLengths tape.blank tape.symbolAt) shortest := by
  obtain ⟨shortest, trimmed, least⟩ :=
    @trimBlanks_covering tape.blank tape.symbolAt tape.extent sound.tail
  refine ⟨shortest, ?_, least⟩
  rw [content, visited_eq sound, if_pos rfl, trimmed]

/-- The trimmed content is the part of that length, if the length is the shortest one that holds
everything but blanks. -/
theorem content_true_of_isLeast (sound : tape.Sound) {length : Nat}
    (least : IsLeast (coveringLengths tape.blank tape.symbolAt) length) :
    tape.content true = String.ofList ((List.range length).map tape.symbolAt) := by
  obtain ⟨shortest, trimmed, isLeast⟩ := content_true sound
  rw [trimmed, isLeast.unique least]

/-- The trimmed content of a tape that holds a word and blanks behind it is the trimmed word. -/
theorem content_true_of_word (sound : tape.Sound) {word : List Char}
    (symbols : tape.symbolAt = fun position => word.getD position tape.blank) :
    tape.content true = String.ofList (trimBlanks tape.blank word) := by
  have covering : word.length ∈ coveringLengths tape.blank tape.symbolAt := by
    intro position beyond
    simp only [symbols, List.getD_eq_getElem?_getD, List.getElem?_eq_none beyond, Option.getD_none]
  have whole : (List.range word.length).map tape.symbolAt = word := by
    apply List.ext_getElem
    · simp
    · intro position inside laidOut
      simp [symbols, laidOut]
  obtain ⟨shortest, trimmed, least⟩ := trimBlanks_covering covering
  rw [whole] at trimmed
  rw [content_true_of_isLeast sound least, trimmed]

end TapeMachine.Tape
