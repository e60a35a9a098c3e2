import TapeMachine.Batch
import TapeMachine.Command.Transcript

/-!
# Running a case file

A batch prints one row for each case, in the order of the cases. Its exit code is kept while the
rows are passed through.
-/

namespace TapeMachine

/-- What is printed about one case of a batch. -/
inductive CaseRow where
  | failed (error : TapeIndexError)
  | finished (report : CaseReport) (passed : Option Bool)
  deriving DecidableEq, Repr

namespace CaseRow

/-- The row of a case and its run. -/
def of (machine : Machine) (outputTape : Nat) (case : Case)
    (finish : Except TapeIndexError RunEnd) : CaseRow :=
  match finish with
  | .error error => .failed error
  | .ok finish =>
    let report := machine.report finish
    .finished report (report.passed? case outputTape)

/-- The exit code after a row, given the code after the rows before it. A failure settles it; an
outcome and a missed expectation, which counts as a rejection, can only make it worse. -/
def raise (code : Nat) : CaseRow → Nat
  | .failed _ => failureCode
  | .finished report passed =>
    let code := max code report.result.outcome.exitCode
    if passed = some false then max code Outcome.rejected.exitCode else code

/-- The printed line of a row. -/
def text (outputTape number : Nat) : CaseRow → String
  | .failed error => "case " ++ number.repr ++ ": error: " ++ error.message
  | .finished report passed =>
    let verdict :=
      match passed with
      | some true => " [pass]"
      | some false => " [FAIL]"
      | none => ""
    "case " ++ number.repr ++ ": " ++ report.result.outcome.text ++ " after " ++
      report.result.steps.repr ++ " steps, output: " ++ (report.output? outputTape).getD "" ++
      verdict

/-- The JSON form of a row with its members in alphabetical order. -/
def toJson (number : Nat) : CaseRow → Json
  | .failed error => .object [("case", .number number), ("error", .string error.message)]
  | .finished report passed =>
    .object [
      ("case", .number number),
      ("passed", passed.elim .null .bool),
      ("result", report.result.toSortedJson),
      ("tapes", .strings report.tapes)]

/-- The rows of a batch, in the order of its cases. -/
def all (machine : Machine) (outputTape : Nat) (cases : List Case)
    (runs : List (Except TapeIndexError RunEnd)) : List CaseRow :=
  List.zipWith (of machine outputTape) cases runs

/-- The exit code after all rows. -/
def exitCode (rows : List CaseRow) : Nat :=
  rows.foldl raise Outcome.accepted.exitCode

/-- The events of a run that may have failed to start. -/
def eventsOf (run : Except TapeIndexError RunEnd) : List Event :=
  match run with
  | .ok finish => finish.events.toList
  | .error _ => []

end CaseRow

/-- The transcript of a batch. -/
def Machine.batchTranscript (machine : Machine) (text : String) (outputTape : Nat)
    (config : RunConfig) (json : Bool) : Transcript :=
  let cases := Case.readAll text
  let runs := machine.runBatch config cases
  let rows := CaseRow.all machine outputTape cases runs
  let numbered := rows.zipIdx 1
  { exitCode := CaseRow.exitCode rows
    stdout :=
      if json then
        let report := Json.array (numbered.map fun (row, number) => row.toJson number)
        Text.line (report.render .pretty)
      else Text.unlines (numbered.map fun (row, number) => row.text outputTape number)
    stderr := []
    events := .runningBatch machine.name cases.length :: runs.flatMap CaseRow.eventsOf }

end TapeMachine
