import TapeMachine.Run.Json
import TapeMachine.Text.Lines

/-!
# Transcripts

What a command leaves behind: the exit code, the two output texts, and the events of which a log
filter keeps some.
-/

namespace TapeMachine

/-- What a program leaves behind. -/
structure Transcript where
  exitCode : Nat
  stdout : String
  /-- The lines of the error output apart from the log. -/
  stderr : List String
  events : List Event
  deriving Repr

/-- The exit code of an outcome. -/
def Outcome.exitCode : Outcome → Nat
  | .accepted => 0
  | .rejected => 1
  | .stepLimitExceeded => 2

/-- The exit code of a failure. -/
def failureCode : Nat := 3

/-- The exit code of arguments that are not a valid invocation. -/
def usageCode : Nat := 2

/-- A transcript without error output and events. -/
def Transcript.ofOutput (stdout : String) : Transcript where
  exitCode := 0
  stdout := stdout
  stderr := []
  events := []

/-- The JSON form of a report with its members in alphabetical order. -/
def RunResult.toSortedJson (result : RunResult) : Json :=
  .object [
    ("heads", .numbers result.heads),
    ("outcome", result.outcome.toJson),
    ("state", .string result.state),
    ("steps", .number result.steps),
    ("symbols", .symbols result.symbols)]

end TapeMachine
