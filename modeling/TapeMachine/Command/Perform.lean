import TapeMachine.Catalog
import TapeMachine.Command.Arguments
import TapeMachine.Command.LogFilter
import TapeMachine.Command.Rows
import TapeMachine.Command.Walk
import TapeMachine.Lint
import TapeMachine.SourceFile

/-!
# Carrying out commands

A command is a function of its options, of the files it reads and of the standard input. The
events it reports until it fails are part of its transcript.
-/

namespace TapeMachine

/-- Why a command fails. -/
inductive CommandError where
  | source (error : SourceError)
  | unknownBuiltin (name : String)
  | unreadableConfig (path : String) (failure : ReadFailure)
  | invalidConfig (error : Json.Error)
  | unreadableCases (path : String) (failure : ReadFailure)
  | unreadableInput (failure : ReadFailure)
  | noInput
  | tapeIndex (error : TapeIndexError)
  deriving DecidableEq, Repr

/-- The wording of a failure. -/
def CommandError.message : CommandError → String
  | .source error => error.message
  | .unknownBuiltin name => "Built-in machine '" ++ name ++ "' not found"
  | .unreadableConfig path failure =>
    SourceError.fileError ("Failed to read file " ++ path ++ ": " ++ failure.message)
  | .invalidConfig error => LoadError.malformed ("invalid run configuration: " ++ error.message)
  | .unreadableCases path failure => "Failed to read file '" ++ path ++ "': " ++ failure.message
  | .unreadableInput failure => "Failed to read from stdin: " ++ failure.message
  | .noInput => "No cases given: pass --cases or pipe a case file to stdin"
  | .tapeIndex error => error.message

/-- What a command can read. -/
structure Surroundings where
  files : FileReader
  /-- The standard input, unless it is a terminal. -/
  stdin : Option (Except ReadFailure String)

/-- A computation that reports events and may fail. -/
abbrev Work := ExceptT CommandError (StateM (Array Event))

/-- Report events. -/
def Work.report (events : Array Event) : Work Unit :=
  modify (· ++ events)

/-- Fail with the error of a result. -/
def Work.orFail {ε α : Type} (wrap : ε → CommandError) (result : Except ε α) : Work α :=
  match result with
  | .ok value => pure value
  | .error error => throw (wrap error)

/-- Load the machine of a command. -/
def MachineSource.load (source : MachineSource) (surroundings : Surroundings) : Work Machine :=
  match source with
  | .file path => do
    let (format, text) ← Work.orFail .source (surroundings.files.source path)
    Work.report #[.loading path format.title]
    Work.orFail (fun error => .source (.invalid error)) (format.load text)
  | .builtin name =>
    match Catalog.machine? name with
    | some machine => pure machine
    | none => throw (.unknownBuiltin name)

/-- The settings of a run: the defaults, then the file, then the options. -/
def RunOptions.toConfig (options : RunOptions) (surroundings : Surroundings) : Work RunConfig := do
  let config ←
    match options.config with
    | none => pure {}
    | some path => do
      let text ← Work.orFail (.unreadableConfig path) (surroundings.files path)
      Work.orFail .invalidConfig (RunConfig.ofJson text)
  return {
    maxSteps := options.maxSteps.getD config.maxSteps
    trace := config.trace || options.trace }

/-- Read the text of the cases. -/
def Surroundings.readCases (surroundings : Surroundings) (path : Option String) : Work String :=
  match path with
  | some path => Work.orFail (.unreadableCases path) (surroundings.files path)
  | none =>
    match surroundings.stdin with
    | some input => Work.orFail .unreadableInput input
    | none => throw .noInput

/-- The transcript of checking a machine. -/
def Machine.checkTranscript (machine : Machine) : Transcript :=
  let name := if machine.name = "" then "(unnamed machine)" else machine.name
  let heading := name ++ ": " ++ machine.states.size.repr ++ " states, " ++
    machine.ruleCount.repr ++ " transitions, " ++ machine.tapeCount.repr ++ " tapes"
  let findings :=
    match machine.findings with
    | [] => ["no findings"]
    | findings => findings.map fun finding => "warning: " ++ finding.text
  .ofOutput (Text.unlines (heading :: findings))

/-- The transcript of writing a machine in a format. -/
def Machine.convertTranscript (machine : Machine) (format : Format) : Transcript :=
  .ofOutput (match format with
    | .json => Text.line (format.encode machine)
    | .listing => format.encode machine)

/-- The line of a machine of the catalog. -/
def CatalogEntry.line (entry : CatalogEntry) (index : Nat) : String :=
  index.repr ++ ": " ++ entry.machine.name ++ " (" ++ entry.machine.tapeCount.repr ++ " tapes, " ++
    entry.machine.states.size.repr ++ " states, " ++ entry.machine.ruleCount.repr ++
    " transitions), sample input: " ++ Text.join " | " entry.sample

/-- The transcript of listing the catalog. -/
def Catalog.transcript : Transcript :=
  .ofOutput (Text.unlines (Catalog.entries.zipIdx.map fun (entry, index) => entry.line index))

namespace Command

/-- Carry out a command, after the events reported so far. -/
def perform (command : Command) (surroundings : Surroundings) : Work Transcript :=
  match command with
  | .run source tapes options debug json => do
    let machine ← source.load surroundings
    let config ← options.toConfig surroundings
    let run ← Work.orFail .tapeIndex (MachineRun.of machine tapes config debug)
    return run.transcript machine debug json
  | .batch source cases outputTape options json => do
    let machine ← source.load surroundings
    let config ← options.toConfig surroundings
    let text ← surroundings.readCases cases
    return machine.batchTranscript text outputTape config json
  | .check source => do return (← source.load surroundings).checkTranscript
  | .convert source format => do return (← source.load surroundings).convertTranscript format
  | .list => return Catalog.transcript

/-- The files that a command may read. -/
def paths : Command → List String
  | .run source _ options _ _ => sourcePaths source ++ options.config.toList
  | .batch source cases _ options _ => sourcePaths source ++ options.config.toList ++ cases.toList
  | .check source => sourcePaths source
  | .convert source _ => sourcePaths source
  | .list => []
where
  /-- The file of a machine. -/
  sourcePaths : MachineSource → List String
    | .file path => [path]
    | .builtin _ => []

end Command

/-- Carry out an invocation. The log filter is the configured one or follows from the log level; the
transcript keeps the events that pass it. -/
def Invocation.perform (invocation : Invocation) (filter : Option String)
    (surroundings : Surroundings) : Transcript :=
  let (filter, ignored) :=
    LogFilter.choose filter invocation.logLevel invocation.command.traces
  let (outcome, events) := (invocation.command.perform surroundings).run.run #[]
  let transcript :=
    match outcome with
    | .ok transcript => { transcript with events := events.toList ++ transcript.events }
    | .error error =>
      { exitCode := failureCode, stdout := "", stderr := ["Error: " ++ error.message]
        events := events.toList }
  { transcript with
    stderr := ignored ++ transcript.stderr
    events := transcript.events.filter filter.passes }

end TapeMachine
