import TapeMachine.Document
import TapeMachine.Json.Reader
import TapeMachine.Json.Value

/-!
# Documents as JSON

The JSON form of a document. Some fields have a second name, which older tables use. Fields that
are absent take their default where there is one; the name and the description are left out of
the written form when they are empty.
-/

namespace TapeMachine

open Json (Reader Record)

/-- The fields of an action that were read so far. -/
structure ActionDraft where
  write : Option (List String) := none
  move : Option (List String) := none
  nextState : Option String := none

namespace ActionRecord

/-- How an action is read. -/
def record (limit : Nat) : Record ActionDraft ActionRecord where
  title := "ActionRecord"
  draft := {}
  fields := [
    .of "write" none (·.write) (fun draft value => { draft with write := some value })
      (Reader.list limit Reader.string),
    .of "move" none (·.move) (fun draft value => { draft with move := some value })
      (Reader.list limit Reader.string),
    .of "nextState" (some "next_state") (·.nextState)
      (fun draft value => { draft with nextState := some value }) Reader.string]
  build absent draft := do
    let write ← Json.required draft.write (absent 0 "write")
    let move ← Json.required draft.move (absent 1 "move")
    let nextState ← Json.required draft.nextState (absent 2 "nextState")
    return { write, move, nextState }

/-- Read an action. -/
def reader (limit : Nat) : Reader ActionRecord :=
  (record limit).read limit

/-- The JSON form of an action. -/
def toJson (action : ActionRecord) : Json :=
  .object [
    ("write", .strings action.write),
    ("move", .strings action.move),
    ("nextState", .string action.nextState)]

end ActionRecord

/-- The fields of a document that were read so far. -/
structure DocumentDraft where
  name : Option String := none
  description : Option String := none
  states : Option (List String) := none
  inputAlphabet : Option (List String) := none
  tapeAlphabet : Option (List String) := none
  tapeCount : Option Nat := none
  initialState : Option String := none
  acceptingStates : Option (List String) := none
  blank : Option String := none
  wildcard : Option String := none
  unchanged : Option String := none
  transitions : Option (Table (Table ActionRecord)) := none

namespace Document

/-- How a document is read. -/
def record (limit : Nat) : Record DocumentDraft Document where
  title := "DescriptionDocument"
  draft := {}
  fields :=
    let strings := Reader.list limit Reader.string
    [ .of "name" none (·.name) (fun draft value => { draft with name := some value })
        Reader.string,
      .of "description" none (·.description)
        (fun draft value => { draft with description := some value }) Reader.string,
      .of "states" (some "Q") (·.states)
        (fun draft value => { draft with states := some value }) strings,
      .of "inputAlphabet" (some "Sigma") (·.inputAlphabet)
        (fun draft value => { draft with inputAlphabet := some value }) strings,
      .of "tapeAlphabet" (some "Gamma") (·.tapeAlphabet)
        (fun draft value => { draft with tapeAlphabet := some value }) strings,
      .of "tapeCount" (some "num_tapes") (·.tapeCount)
        (fun draft value => { draft with tapeCount := some value }) Reader.word64,
      .of "initialState" (some "q0") (·.initialState)
        (fun draft value => { draft with initialState := some value }) Reader.string,
      .of "acceptingStates" (some "F") (·.acceptingStates)
        (fun draft value => { draft with acceptingStates := some value }) strings,
      .of "blank" none (·.blank) (fun draft value => { draft with blank := some value })
        Reader.string,
      .of "wildcard" none (·.wildcard) (fun draft value => { draft with wildcard := some value })
        Reader.string,
      .of "unchanged" none (·.unchanged)
        (fun draft value => { draft with unchanged := some value }) Reader.string,
      .of "transitions" (some "delta") (·.transitions)
        (fun draft value => { draft with transitions := some value })
        (Reader.table limit (Reader.table limit (ActionRecord.reader limit)))]
  build absent draft := do
    let states ← Json.required draft.states (absent 2 "states")
    let inputAlphabet ← Json.required draft.inputAlphabet (absent 3 "inputAlphabet")
    let tapeAlphabet ← Json.required draft.tapeAlphabet (absent 4 "tapeAlphabet")
    let tapeCount ← Json.required draft.tapeCount (absent 5 "tapeCount")
    let initialState ← Json.required draft.initialState (absent 6 "initialState")
    let acceptingStates ← Json.required draft.acceptingStates (absent 7 "acceptingStates")
    let transitions ← Json.required draft.transitions (absent 11 "transitions")
    return {
      name := draft.name.getD ""
      description := draft.description.getD ""
      states, inputAlphabet, tapeAlphabet, tapeCount, initialState, acceptingStates
      blank := draft.blank.getD defaultBlank
      wildcard := draft.wildcard.getD defaultWildcard
      unchanged := draft.unchanged.getD defaultUnchanged
      transitions }

/-- Read a document. -/
def reader (limit : Nat) : Reader Document :=
  (record limit).read limit

/-- Read a document from a JSON text. -/
def ofJson (text : String) : Except Json.Error Document :=
  Json.readText reader text

/-- A member that is left out when its text is empty. -/
def optionalMember (key value : String) : List (String × Json) :=
  if value = "" then [] else [(key, .string value)]

/-- The JSON form of a document. -/
def toJson (document : Document) : Json :=
  .object (optionalMember "name" document.name ++
    optionalMember "description" document.description ++ [
    ("states", .strings document.states),
    ("inputAlphabet", .strings document.inputAlphabet),
    ("tapeAlphabet", .strings document.tapeAlphabet),
    ("tapeCount", .number document.tapeCount),
    ("initialState", .string document.initialState),
    ("acceptingStates", .strings document.acceptingStates),
    ("blank", .string document.blank),
    ("wildcard", .string document.wildcard),
    ("unchanged", .string document.unchanged),
    ("transitions", .object (document.transitions.map fun (source, rules) =>
      (source, .object (rules.map fun (pattern, action) => (pattern, action.toJson)))))])

end Document

end TapeMachine
