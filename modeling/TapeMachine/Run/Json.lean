import TapeMachine.Json.Reader
import TapeMachine.Json.Value
import TapeMachine.Run

/-!
# Runs as JSON

The JSON forms of the settings of a run, of its outcome and of what it reports.
-/

namespace TapeMachine

open Json (Reader Record)

namespace Direction

/-- Read a movement by its full name. -/
def reader : Reader Direction :=
  Reader.variant (all.map fun direction => (direction.name, direction))

/-- The JSON form of a movement. -/
def toJson (direction : Direction) : Json :=
  .string direction.name

end Direction

namespace Outcome

/-- Read an outcome by its name. -/
def reader : Reader Outcome :=
  Reader.variant (all.map fun outcome => (outcome.name, outcome))

/-- The JSON form of an outcome. -/
def toJson (outcome : Outcome) : Json :=
  .string outcome.name

end Outcome

/-- The settings of a run that were read so far. -/
structure RunConfigDraft where
  maxSteps : Option Nat := none
  trace : Option Bool := none

namespace RunConfig

/-- How the settings of a run are read; every setting has a default. -/
def record : Record RunConfigDraft RunConfig where
  title := "RunConfig"
  draft := {}
  fields := [
    .of "maxSteps" none (·.maxSteps) (fun draft value => { draft with maxSteps := some value })
      Reader.word64,
    .of "trace" none (·.trace) (fun draft value => { draft with trace := some value })
      Reader.boolean]
  build _ draft :=
    let fallback : RunConfig := {}
    .ok {
      maxSteps := draft.maxSteps.getD fallback.maxSteps
      trace := draft.trace.getD fallback.trace }

/-- Read the settings of a run from a JSON text. -/
def ofJson (text : String) : Except Json.Error RunConfig :=
  Json.readText record.read text

/-- The JSON form of the settings of a run. -/
def toJson (config : RunConfig) : Json :=
  .object [("maxSteps", .number config.maxSteps), ("trace", .bool config.trace)]

end RunConfig

/-- The fields of a rejection that were read so far. -/
structure RejectionDraft where
  state : Option String := none
  symbols : Option (List Char) := none

namespace Rejection

/-- How a rejection is read. -/
def record (limit : Nat) : Record RejectionDraft Rejection where
  title := "Rejection"
  draft := {}
  fields := [
    .of "state" none (·.state) (fun draft value => { draft with state := some value })
      Reader.string,
    .of "symbols" none (·.symbols) (fun draft value => { draft with symbols := some value })
      (Reader.list limit Reader.character)]
  build absent draft := do
    let state ← Json.required draft.state (absent 0 "state")
    let symbols ← Json.required draft.symbols (absent 1 "symbols")
    return { state, symbols }

/-- Read a rejection. -/
def reader (limit : Nat) : Reader Rejection :=
  (record limit).read limit

/-- The JSON form of a rejection. -/
def toJson (rejection : Rejection) : Json :=
  .object [("state", .string rejection.state), ("symbols", .symbols rejection.symbols)]

end Rejection

/-- The fields of a run's report that were read so far. -/
structure RunResultDraft where
  outcome : Option Outcome := none
  state : Option String := none
  steps : Option Nat := none
  heads : Option (List Nat) := none
  symbols : Option (List Char) := none

namespace RunResult

/-- How the report of a run is read. -/
def record (limit : Nat) : Record RunResultDraft RunResult where
  title := "RunResult"
  draft := {}
  fields := [
    .of "outcome" none (·.outcome) (fun draft value => { draft with outcome := some value })
      Outcome.reader,
    .of "state" none (·.state) (fun draft value => { draft with state := some value })
      Reader.string,
    .of "steps" none (·.steps) (fun draft value => { draft with steps := some value })
      Reader.word64,
    .of "heads" none (·.heads) (fun draft value => { draft with heads := some value })
      (Reader.list limit Reader.word64),
    .of "symbols" none (·.symbols) (fun draft value => { draft with symbols := some value })
      (Reader.list limit Reader.character)]
  build absent draft := do
    let outcome ← Json.required draft.outcome (absent 0 "outcome")
    let state ← Json.required draft.state (absent 1 "state")
    let steps ← Json.required draft.steps (absent 2 "steps")
    let heads ← Json.required draft.heads (absent 3 "heads")
    let symbols ← Json.required draft.symbols (absent 4 "symbols")
    return { outcome, state, steps, heads, symbols }

/-- Read the report of a run. -/
def reader (limit : Nat) : Reader RunResult :=
  (record limit).read limit

/-- The JSON form of the report of a run. -/
def toJson (result : RunResult) : Json :=
  .object [
    ("outcome", result.outcome.toJson),
    ("state", .string result.state),
    ("steps", .number result.steps),
    ("heads", .numbers result.heads),
    ("symbols", .symbols result.symbols)]

end RunResult

end TapeMachine
