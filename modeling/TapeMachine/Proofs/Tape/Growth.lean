import Mathlib.Data.List.Induction
import Mathlib.Order.Bounds.Basic
import TapeMachine.Proofs.Tape

/-!
# How far a tape grows

A tape lays out cells in blocks, and only when its head steps off the last cell. `Tape.Grown` gives
the number of cells and the extent in closed form, from the length of the seed and the furthest
position of the head. A seeded tape has grown as far as its first cell asks, and every operation
keeps the closed form: a head moves by one cell at most, so a tape that has to grow is left at
exactly its first missing cell.
-/

namespace TapeMachine.Tape

/-! ## Operations -/

/-- What can be done with a tape. -/
inductive Operation where
  /-- Overwrite the symbol under the head. -/
  | write (symbol : Char)
  /-- Move the head. -/
  | shift (direction : Direction)
  deriving DecidableEq, Repr

/-- The tape after an operation. -/
def perform (tape : Tape) : Operation → Tape
  | .write symbol => tape.write symbol
  | .shift direction => tape.shift direction

/-- The tape after several operations. -/
def performAll (tape : Tape) (operations : List Operation) : Tape :=
  operations.foldl perform tape

/-- Where the head stands before, between and after the operations. -/
def headsDuring (tape : Tape) (operations : List Operation) : Set Nat :=
  {head | ∃ before, before <+: operations ∧ (tape.performAll before).head = head}

/-- The positions that the operations write to. -/
def writtenDuring (tape : Tape) (operations : List Operation) : Set Nat :=
  {position | ∃ before symbol, before ++ [.write symbol] <+: operations ∧
    (tape.performAll before).head = position}

variable {tape : Tape} {operation : Operation} {operations : List Operation}
  {length furthest position : Nat}

@[simp]
theorem performAll_nil : tape.performAll [] = tape := rfl

theorem performAll_append (first second : List Operation) :
    tape.performAll (first ++ second) = (tape.performAll first).performAll second :=
  List.foldl_append

theorem performAll_append_singleton (operations : List Operation) (operation : Operation) :
    tape.performAll (operations ++ [operation]) = (tape.performAll operations).perform operation :=
  performAll_append operations [operation]

@[simp]
theorem headsDuring_nil : tape.headsDuring [] = {tape.head} := by
  ext head
  simp [headsDuring, eq_comm]

/-- The last operation adds where the head stands after it. -/
theorem headsDuring_append_singleton (operations : List Operation) (operation : Operation) :
    tape.headsDuring (operations ++ [operation]) =
      insert ((tape.performAll operations).perform operation).head
        (tape.headsDuring operations) := by
  ext head
  simp only [headsDuring, Set.mem_ofPred_eq, Set.mem_insert_iff, List.prefix_concat_iff,
    or_and_right, exists_or, exists_eq_left, performAll_append_singleton]
  rw [eq_comm]

/-- What is not written to by all operations is not written to by those before the last one, and the
last one does not write to it either. -/
theorem notMem_writtenDuring_append_singleton
    (unwritten : position ∉ tape.writtenDuring (operations ++ [operation])) :
    position ∉ tape.writtenDuring operations ∧
      ∀ symbol, operation = .write symbol → position ≠ (tape.performAll operations).head := by
  constructor
  · rintro ⟨before, symbol, written, here⟩
    exact unwritten ⟨before, symbol, written.trans (List.prefix_append _ _), here⟩
  · rintro symbol rfl rfl
    exact unwritten ⟨operations, symbol, List.prefix_rfl, rfl⟩

/-! ## Cells and extent -/

theorem capacity_shift (tape : Tape) (direction : Direction) :
    (tape.shift direction).capacity =
      if moveHead tape.head direction < tape.capacity then tape.capacity
      else moveHead tape.head direction + blockSize :=
  size_grow tape.cells (moveHead tape.head direction) tape.blank

/-- The number of cells that are laid out for a seed of a length once the head has been as far as
`furthest`. -/
def cellsFor (length furthest : Nat) : Nat :=
  length + blockSize * (1 + (furthest - length) / blockSize)

/-- The cells reach beyond the head. -/
theorem lt_cellsFor (length furthest : Nat) : furthest < cellsFor length furthest := by
  simp only [cellsFor, blockSize]
  omega

/-- One cell further, either nothing is laid out, or a block beyond the first missing cell. -/
theorem cellsFor_succ (length furthest : Nat) :
    cellsFor length (furthest + 1) =
      if furthest + 1 < cellsFor length furthest then cellsFor length furthest
      else furthest + 1 + blockSize := by
  by_cases inside : furthest + 1 < cellsFor length furthest
  · rw [if_pos inside]
    simp only [cellsFor, blockSize] at inside ⊢
    omega
  · rw [if_neg inside]
    simp only [cellsFor, blockSize] at inside ⊢
    omega

/-- The last cell of a block can be visited before the next block is laid out. -/
example : cellsFor 2 1001 = 1002 ∧ cellsFor 2 1002 = 2002 := by decide

/-- The head has been as far as `furthest`, and the tape has grown as far as that asks. -/
structure Grown (length furthest : Nat) (tape : Tape) : Prop where
  head : tape.head ≤ furthest
  capacity : tape.capacity = cellsFor length furthest
  extent : tape.extent = max 1 (max length (furthest + 1))

/-- A seeded tape has grown to its content and its first cell. -/
theorem grown_ofList (content : List Char) (blank : Char) :
    (ofList content blank).Grown content.length 0 where
  head := Nat.le_refl 0
  capacity := by simp [Tape.capacity, ofList, cellsFor]
  extent := by
    rw [extent_ofList]
    omega

/-- Writing lays out nothing and moves nothing. -/
theorem Grown.write (grown : tape.Grown length furthest) (symbol : Char) :
    (tape.write symbol).Grown length furthest where
  head := grown.head
  capacity := capacity_write.trans grown.capacity
  extent := grown.extent

/-- Moving the head lays out cells where it stands further than it ever has. -/
theorem Grown.shift (grown : tape.Grown length furthest) (direction : Direction) :
    (tape.shift direction).Grown length (max (moveHead tape.head direction) furthest) := by
  have near : moveHead tape.head direction ≤ furthest + 1 :=
    (moveHead_le tape.head direction).trans (Nat.succ_le_succ grown.head)
  refine ⟨Nat.le_max_left _ _, ?_, ?_⟩
  · rw [capacity_shift, grown.capacity]
    rcases Nat.le_succ_iff.mp near with inside | beyond
    · rw [if_pos (Nat.lt_of_le_of_lt inside (lt_cellsFor length furthest)),
        Nat.max_eq_right inside]
    · rw [beyond, Nat.max_eq_left (Nat.le_succ furthest), cellsFor_succ]
  · rw [extent_shift, grown.extent]
    omega

/-- An operation lets a tape grow with its head. -/
theorem Grown.perform (grown : tape.Grown length furthest) (operation : Operation) :
    (tape.perform operation).Grown length (max (tape.perform operation).head furthest) := by
  cases operation with
  | write symbol =>
      have kept : max (tape.write symbol).head furthest = furthest := Nat.max_eq_right grown.head
      rw [Tape.perform, kept]
      exact grown.write symbol
  | shift direction => exact grown.shift direction

/-- There is a furthest position among those of the head, and the tape has grown as far as it
asks. -/
theorem Grown.performAll (grown : tape.Grown length tape.head) (operations : List Operation) :
    ∃ furthest, IsGreatest (tape.headsDuring operations) furthest ∧
      (tape.performAll operations).Grown length furthest := by
  induction operations using List.reverseRecOn with
  | nil => exact ⟨tape.head, by simp, grown⟩
  | append_singleton operations operation ih =>
      obtain ⟨furthest, greatest, grownBefore⟩ := ih
      rw [headsDuring_append_singleton, performAll_append_singleton]
      exact ⟨_, greatest.insert _, grownBefore.perform operation⟩

/-- No operation takes back a cell or shortens what was visited. -/
theorem le_perform (tape : Tape) (operation : Operation) :
    tape.capacity ≤ (tape.perform operation).capacity ∧
      tape.extent ≤ (tape.perform operation).extent := by
  cases operation with
  | write symbol => exact ⟨capacity_write.ge, Nat.le_refl _⟩
  | shift direction => exact ⟨size_le_size_grow _ _ _, Nat.le_max_left _ _⟩

/-- Tapes never shrink. -/
theorem le_performAll (tape : Tape) (operations : List Operation) :
    tape.capacity ≤ (tape.performAll operations).capacity ∧
      tape.extent ≤ (tape.performAll operations).extent := by
  induction operations generalizing tape with
  | nil => exact ⟨Nat.le_refl _, Nat.le_refl _⟩
  | cons operation operations ih =>
      obtain ⟨cells, visited⟩ := tape.le_perform operation
      obtain ⟨cellsAfter, visitedAfter⟩ := ih (tape.perform operation)
      exact ⟨cells.trans cellsAfter, visited.trans visitedAfter⟩

/-! ## Symbols -/

theorem Sound.perform (sound : tape.Sound) (operation : Operation) :
    (tape.perform operation).Sound := by
  cases operation with
  | write symbol => exact sound.write symbol
  | shift direction => exact sound.shift direction

/-- The tape stays sound, and the symbols where nothing is written stay as they are. -/
theorem Sound.performAll (sound : tape.Sound) (operations : List Operation) :
    (tape.performAll operations).Sound ∧
      ∀ position, position ∉ tape.writtenDuring operations →
        (tape.performAll operations).symbolAt position = tape.symbolAt position := by
  -- From the right, since the last operation is the one that acts on what the others left.
  induction operations using List.reverseRecOn with
  | nil => exact ⟨sound, fun _ _ => rfl⟩
  | append_singleton operations operation ih =>
      obtain ⟨soundBefore, kept⟩ := ih
      rw [performAll_append_singleton]
      refine ⟨soundBefore.perform operation, fun position unwritten => ?_⟩
      obtain ⟨unwrittenBefore, elsewhere⟩ := notMem_writtenDuring_append_singleton unwritten
      rw [← kept position unwrittenBefore]
      cases operation with
      | write symbol =>
          exact (symbolAt_write soundBefore position).trans (if_neg (elsewhere symbol rfl))
      | shift direction => exact symbolAt_shift position

/-- The growth of a tape is exact. Whatever is written and however the head moves, the number of
cells and the extent follow from the length of the content and the furthest position of the head.
Cells that nothing is written to hold what they were seeded with, and neither number ever
decreases. -/
theorem growth_is_exact (content : String) (blank : Char) (operations : List Operation) :
    let seeded := ofString content blank
    let reached := seeded.performAll operations
    (∃ furthest, IsGreatest (seeded.headsDuring operations) furthest ∧
      reached.capacity = content.length + 1000 * (1 + (furthest - content.length) / 1000) ∧
      reached.extent = max 1 (max content.length (furthest + 1))) ∧
    (∀ position < reached.capacity, position ∉ seeded.writtenDuring operations →
      reached.cells[position]? = some (content.toList.getD position blank)) ∧
    ∀ before, before <+: operations →
      (seeded.performAll before).capacity ≤ reached.capacity ∧
        (seeded.performAll before).extent ≤ reached.extent := by
  intro seeded reached
  have grown : seeded.Grown content.length seeded.head := by
    rw [← String.length_toList]
    exact grown_ofList content.toList blank
  obtain ⟨-, kept⟩ := (sound_ofList content.toList blank).performAll operations
  refine ⟨?_, fun position inside unwritten => ?_, ?_⟩
  · obtain ⟨furthest, greatest, grown⟩ := grown.performAll operations
    exact ⟨furthest, greatest, grown.capacity, grown.extent⟩
  · rw [getElem?_cells inside, ← symbolAt_ofList]
    exact congrArg some (kept position unwritten)
  · rintro before ⟨rest, rfl⟩
    have later := (seeded.performAll before).le_performAll rest
    rwa [← performAll_append] at later

end TapeMachine.Tape
