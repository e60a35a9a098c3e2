import TapeMachine.CaseFile
import TapeMachine.Run

/-!
# Batches

A batch runs one machine on many cases. The cases do not influence each other, and the reports
come in the order of the cases.
-/

namespace TapeMachine

/-- What the run of a case reports, and the final contents of its tapes without trailing blanks. -/
structure CaseReport where
  result : RunResult
  tapes : List String
  deriving DecidableEq, Repr

namespace CaseReport

/-- The final content of one tape. -/
def output? (report : CaseReport) (tape : Nat) : Option String :=
  report.tapes[tape]?

/-- Whether the output meets the expectation of a case, if the case has one. A tape that does
not exist meets none. -/
def passed? (report : CaseReport) (case : Case) (outputTape : Nat) : Option Bool :=
  case.expected.map fun expected => report.output? outputTape == some expected

end CaseReport

namespace Machine

/-- Run a machine on the contents of its tapes. -/
def runOn (machine : Machine) (config : RunConfig) (tapes : List String) :
    Except TapeIndexError RunEnd := do
  let configuration ← machine.start tapes
  return machine.run config configuration

/-- The report of a finished run. -/
def report (machine : Machine) (finish : RunEnd) : CaseReport where
  result := finish.result machine
  tapes := TapeBank.contents finish.configuration.tapes true

/-- Run a machine on every case. A case with too many tapes fails alone. -/
def runBatch (machine : Machine) (config : RunConfig) (cases : List Case) :
    List (Except TapeIndexError RunEnd) :=
  cases.map fun case => machine.runOn config case.tapes

end Machine

end TapeMachine
