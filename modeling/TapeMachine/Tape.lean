import TapeMachine.Direction

/-!
# Tapes

A tape has a fixed left end and grows on demand to the right. Cells are laid out in blocks of
blanks, so the cell under the head always exists; `extent` records how far the tape has been seeded
or visited, which is what the tape shows as its content.
-/

namespace TapeMachine

/-- A tape and its head. -/
structure Tape where
  /-- The cells laid out so far, from the left end. -/
  cells : Array Char
  /-- The position of the head. -/
  head : Nat
  /-- One past the furthest cell that was seeded or visited. -/
  extent : Nat
  /-- The symbol of every cell nobody wrote to. -/
  blank : Char
  deriving DecidableEq, Repr, Inhabited

namespace Tape

/-- The number of blank cells laid out whenever a tape has to grow. -/
def blockSize : Nat := 1000

/-- A tape that holds `content` followed by one block of blanks, with the head on the first cell. -/
def ofList (content : List Char) (blank : Char) : Tape where
  cells := content.toArray ++ Array.replicate blockSize blank
  head := 0
  extent := max content.length 1
  blank := blank

/-- A tape that holds the characters of a text. -/
def ofString (content : String) (blank : Char) : Tape :=
  ofList content.toList blank

/-- The number of cells laid out so far. -/
def capacity (tape : Tape) : Nat :=
  tape.cells.size

/-- The symbol under the head. -/
def read (tape : Tape) : Char :=
  tape.cells.getD tape.head tape.blank

/-- Overwrite the symbol under the head. -/
def write (tape : Tape) (symbol : Char) : Tape :=
  { tape with cells := tape.cells.setIfInBounds tape.head symbol }

/-- Where a head at `head` stands after one movement; the left end stops it. -/
def moveHead (head : Nat) : Direction → Nat
  | .left => head - 1
  | .right => head + 1
  | .stay => head

/-- Lay out blanks until a whole block beyond `head` exists, if the cell at `head` does not
exist. -/
def grow (cells : Array Char) (head : Nat) (blank : Char) : Array Char :=
  if head < cells.size then cells
  else cells ++ Array.replicate (head + blockSize - cells.size) blank

/-- Move the head one cell, growing the tape when it leaves the cells laid out so far. -/
def shift (tape : Tape) (direction : Direction) : Tape :=
  let head := moveHead tape.head direction
  { tape with
    cells := grow tape.cells head tape.blank
    head := head
    extent := max tape.extent (head + 1) }

/-- The cells from the left end up to the furthest one seeded or visited. -/
def visited (tape : Tape) : List Char :=
  (tape.cells.extract 0 tape.extent).toList

/-- Remove the longest run of `blank` at the end of a word. -/
def trimBlanks (blank : Char) (word : List Char) : List Char :=
  (word.reverse.dropWhile (· == blank)).reverse

/-- The tape as a text from the left end. With `trim` it stops at the last symbol that is not blank,
otherwise it spans every visited cell. -/
def content (tape : Tape) (trim : Bool) : String :=
  String.ofList (if trim then trimBlanks tape.blank tape.visited else tape.visited)

end Tape

end TapeMachine
