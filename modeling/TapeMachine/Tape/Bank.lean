import TapeMachine.Tape

/-!
# Tape banks

The tapes of one run, in order. An index beyond the last tape is an error that names the index and
the number of tapes.
-/

namespace TapeMachine

/-- A tape index at or beyond the number of tapes. -/
structure TapeIndexError where
  index : Nat
  tapeCount : Nat
  deriving DecidableEq, Repr

/-- The wording of a tape index error. -/
def TapeIndexError.message (error : TapeIndexError) : String :=
  "Tape index " ++ error.index.repr ++ " is out of range (machine has " ++
    error.tapeCount.repr ++ " tapes)"

/-- The tapes of one run, in order. -/
abbrev TapeBank := List Tape

namespace TapeBank

/-- Seed `count` tapes. Tapes without a matching entry in `contents` start blank; more contents than
tapes are refused at the first index that has no tape. -/
def seed (count : Nat) (contents : List String) (blank : Char) : Except TapeIndexError TapeBank :=
  if count < contents.length then
    .error { index := count, tapeCount := count }
  else
    .ok (contents.map (Tape.ofString · blank) ++
      List.replicate (count - contents.length) (Tape.ofList [] blank))

/-- The tape at an index. -/
def tape (bank : TapeBank) (index : Nat) : Except TapeIndexError Tape :=
  match bank[index]? with
  | some tape => .ok tape
  | none => .error { index := index, tapeCount := bank.length }

/-- Replace the tape at an index by `update` of it. -/
def modifyTape (bank : TapeBank) (index : Nat) (update : Tape → Tape) :
    Except TapeIndexError TapeBank :=
  if index < bank.length then .ok (List.modify bank index update)
  else .error { index := index, tapeCount := bank.length }

/-- The symbols under every head, in tape order. -/
def read (bank : TapeBank) : List Char :=
  bank.map Tape.read

/-- The positions of every head, in tape order. -/
def heads (bank : TapeBank) : List Nat :=
  bank.map Tape.head

/-- The contents of every tape, in tape order. -/
def contents (bank : TapeBank) (trim : Bool) : List String :=
  bank.map (Tape.content · trim)

end TapeBank

end TapeMachine
