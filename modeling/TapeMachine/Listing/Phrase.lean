/-!
# Phrases

A phrase takes a value from the start of a text or fails. Besides its result every phrase tells
the furthest place where a named phrase inside it failed, which is where a reader of the whole
text looks for the mistake. The result never depends on these places.
-/

namespace TapeMachine.Listing

/-- Whether a character is skipped between the parts of a phrase. -/
def isFiller (c : Char) : Bool :=
  c == ' ' || c == '\t'

/-- Whether a character ends a line, alone or as the first of two. -/
def isLineEnd (c : Char) : Bool :=
  c == '\n' || c == '\r'

/-- A place in a text: how many characters stand before it, and those that stand after it. -/
structure Cursor where
  offset : Nat
  rest : List Char
  deriving DecidableEq, Repr

namespace Cursor

/-- The start of a text. -/
def start (text : List Char) : Cursor where
  offset := 0
  rest := text

/-- The place after the characters that satisfy a condition. -/
def dropWhile (cursor : Cursor) (condition : Char → Bool) : Cursor where
  offset := cursor.offset + (cursor.rest.takeWhile condition).length
  rest := cursor.rest.dropWhile condition

/-- The place after spaces, tabs and a comment, which extends to the end of its line. -/
def skipFiller (cursor : Cursor) : Cursor :=
  let next := cursor.dropWhile isFiller
  match next.rest with
  | '#' :: _ => next.dropWhile (!isLineEnd ·)
  | _ => next

end Cursor

/-- What a phrase made of a text. -/
structure Reply (α : Type) where
  /-- The furthest place where a named phrase failed, zero if none did. -/
  furthest : Nat
  /-- The value and the place after it, unless the phrase failed. -/
  result : Option (α × Cursor)

/-- Takes a value from a place in a text, or fails. -/
def Phrase (α : Type) := Cursor → Reply α

namespace Phrase

variable {α β : Type}

/-- Take a value without reading. -/
protected def pure (value : α) : Phrase α := fun cursor =>
  { furthest := 0, result := some (value, cursor) }

/-- Read one phrase after another. -/
protected def bind (first : Phrase α) (second : α → Phrase β) : Phrase β := fun cursor =>
  let reply := first cursor
  match reply.result with
  | none => { furthest := reply.furthest, result := none }
  | some (value, cursor) =>
    let next := second value cursor
    { next with furthest := max reply.furthest next.furthest }

instance : Monad Phrase where
  pure := Phrase.pure
  bind := Phrase.bind

/-- Fail. -/
def fail : Phrase α := fun _ => { furthest := 0, result := none }

/-- Read the first phrase, or the second one from the same place. -/
def orElse (first second : Phrase α) : Phrase α := fun cursor =>
  let reply := first cursor
  match reply.result with
  | some _ => reply
  | none =>
    let next := second cursor
    { next with furthest := max reply.furthest next.furthest }

/-- Read the first of several phrases that does not fail. -/
def choice (phrases : List (Phrase α)) : Phrase α :=
  phrases.foldr orElse fail

/-- Give a phrase a name: where it fails is worth telling. -/
def named (phrase : Phrase α) : Phrase α := fun cursor =>
  let reply := phrase cursor
  match reply.result with
  | some _ => reply
  | none => { reply with furthest := max reply.furthest cursor.offset }

/-- Read a phrase, or `fallback` without reading if it fails. -/
def optional (phrase : Phrase α) (fallback : α) : Phrase α :=
  orElse phrase (Phrase.pure fallback)

/-- The place where a phrase starts, and its value. -/
def located (phrase : Phrase α) : Phrase (Nat × α) := fun cursor =>
  (do return (cursor.offset, ← phrase) : Phrase (Nat × α)) cursor

/-- Read fixed characters. -/
def literal : List Char → Phrase Unit
  | [] => Phrase.pure ()
  | c :: word => fun cursor =>
    match cursor.rest with
    | [] => fail cursor
    | next :: rest =>
      if next = c then literal word { offset := cursor.offset + 1, rest }
      else fail cursor

/-- Read the longest run of characters that satisfy a condition, if it is not empty. -/
def run (condition : Char → Bool) : Phrase (List Char) := fun cursor =>
  match cursor.rest.takeWhile condition with
  | [] => fail cursor
  | run => { furthest := 0, result := some (run, cursor.dropWhile condition) }

/-- Skip spaces, tabs and a comment. -/
def filler : Phrase Unit := fun cursor =>
  { furthest := 0, result := some ((), cursor.skipFiller) }

/-- Read a phrase as often as possible, with filler between the readings, after the values in
`done`, which are listed last first. A reading that fails gives its filler back. The failures
inside the readings so far reach up to `furthest`. -/
def manyFrom (phrase : Phrase α) :
    (fuel : Nat) → (furthest : Nat) → (done : List α) → Cursor → Reply (List α)
  | 0, furthest, done, cursor => { furthest, result := some (done.reverse, cursor) }
  | fuel + 1, furthest, done, cursor =>
    let reply := phrase cursor.skipFiller
    let furthest := max furthest reply.furthest
    match reply.result with
    | none => { furthest, result := some (done.reverse, cursor) }
    | some (value, next) => manyFrom phrase fuel furthest (value :: done) next

/-- Read a phrase as often as possible, at most `limit` times. -/
def many (limit : Nat) (phrase : Phrase α) : Phrase (List α) :=
  manyFrom phrase limit 0 []

/-- Read a phrase at least once. -/
def many1 (limit : Nat) (phrase : Phrase α) : Phrase (List α) := do
  let first ← phrase
  filler
  let others ← many limit phrase
  return first :: others

end Phrase

end TapeMachine.Listing
