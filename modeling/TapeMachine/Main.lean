import TapeMachine.Command.Perform

/-!
# The command line program

Reads the arguments, the files that the command names and the standard input, and prints the
transcript of the command.
-/

namespace TapeMachine.Console

/-- The failure behind an error of the system. -/
def failureOf : IO.Error → ReadFailure
  | .noFileOrDirectory .. => .notFound
  | .inappropriateType _ code _ => if code = 20 then .notDirectory else .isDirectory
  | error => .other (toString error)

/-- Read the text of a file. -/
def readText (path : String) : IO (Except ReadFailure String) := do
  try return textOfOctets (← IO.FS.readBinFile path)
  catch error => return .error (failureOf error)

/-- Read a stream to its end, after the octets in `read`. -/
partial def readStream (stream : IO.FS.Stream) (read : ByteArray) : IO ByteArray := do
  let octets ← stream.read 65536
  if octets.isEmpty then return read else readStream stream (read ++ octets)

/-- Read the standard input, unless it is a terminal. -/
def readInput : IO (Option (Except ReadFailure String)) := do
  let stdin ← IO.getStdin
  if ← stdin.isTty then return none
  try return some (textOfOctets (← readStream stdin ByteArray.empty))
  catch error => return some (.error (failureOf error))

/-- Read everything that a command may read. -/
def readSurroundings (command : Command) : IO Surroundings := do
  let texts ← command.paths.mapM fun path => return (path, ← readText path)
  let stdin ←
    match command with
    | .batch _ none .. => readInput
    | _ => pure none
  return {
    files := fun path => (texts.lookup path).getD (.error .notFound)
    stdin := stdin }

/-- The line of an event in the log. -/
def logLine (event : Event) : String :=
  let field : String × FieldValue → String
    | (name, .number value) => " " ++ name ++ "=" ++ value.repr
    | (name, .text value) => " " ++ name ++ "=" ++ value
  event.level.name ++ " " ++ event.target ++ ": " ++ event.message ++
    String.join (event.fields.map field)

/-- How the program is called. -/
def usageText : String :=
  "Usage: mtur [--log-level LEVEL] COMMAND [OPTIONS]\n\n" ++
  "Commands:\n" ++
  "  run (-m FILE | -b NAME) [-t TAPE]... [-d] [--json] [RUN OPTIONS]\n" ++
  "  batch (-m FILE | -b NAME) [-c FILE] [--output-tape N] [--json] [RUN OPTIONS]\n" ++
  "  check (-m FILE | -b NAME)\n" ++
  "  convert (-m FILE | -b NAME) --to json|text\n" ++
  "  list\n\n" ++
  "Run options: [--config FILE] [--max-steps N] [--trace]\n"

end TapeMachine.Console

open TapeMachine Console in
/-- Carry out the command that the arguments name. -/
def main (arguments : List String) : IO UInt32 := do
  match Arguments.read arguments with
  | .error .help =>
    IO.print usageText
    return 0
  | .error .usage =>
    IO.eprint usageText
    return usageCode.toUInt32
  | .ok invocation =>
    let surroundings ← readSurroundings invocation.command
    let filter ← IO.getEnv "MTUR_LOG"
    let transcript := invocation.perform filter surroundings
    for event in transcript.events do IO.eprintln (logLine event)
    IO.print transcript.stdout
    for text in transcript.stderr do IO.eprintln text
    return transcript.exitCode.toUInt32
