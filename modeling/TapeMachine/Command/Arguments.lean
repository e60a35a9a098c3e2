import TapeMachine.Load
import TapeMachine.Text.Word

/-!
# Arguments of the command line

A command is followed by its options in any order. Options are spelled with two hyphens and a
name, or with one hyphen and a letter; a value follows as the next argument or after an equals
sign, and after a letter also directly. An option that is not a list may be given once. The log
level may be given before the command and after it, and the second one counts.
-/

namespace TapeMachine

/-- Where a machine comes from. -/
inductive MachineSource where
  | file (path : String)
  | builtin (name : String)
  deriving DecidableEq, Repr

/-- The options of a run. -/
structure RunOptions where
  /-- The path of a file with settings. -/
  config : Option String
  maxSteps : Option Nat
  trace : Bool
  deriving DecidableEq, Repr

/-- A command with its options. -/
inductive Command where
  | run (source : MachineSource) (tapes : List String) (options : RunOptions) (debug json : Bool)
  | batch (source : MachineSource) (cases : Option String) (outputTape : Nat)
      (options : RunOptions) (json : Bool)
  | check (source : MachineSource)
  | convert (source : MachineSource) (format : Format)
  | list
  deriving DecidableEq, Repr

/-- Whether a command asks for a traced run. -/
def Command.traces : Command → Bool
  | .run _ _ options _ _ => options.trace
  | .batch _ _ _ options _ => options.trace
  | _ => false

/-- A command and the log level. -/
structure Invocation where
  logLevel : String
  command : Command
  deriving DecidableEq, Repr

/-- Why arguments are not carried out. -/
inductive Refusal where
  /-- The arguments are not a valid invocation. -/
  | usage
  /-- The arguments ask for help. -/
  | help
  deriving DecidableEq, Repr

/-- How often an option may be given and whether it has a value. -/
inductive OptionKind where
  | flag
  | value
  | values
  deriving DecidableEq, Repr

/-- An option of a command. -/
structure OptionSpec where
  name : String
  letter : Option Char
  kind : OptionKind
  deriving DecidableEq, Repr

/-- The options that were given, in order, each with its value; flags have an empty value. -/
abbrev GivenOptions := List (String × String)

namespace GivenOptions

/-- Whether an option was given. -/
def has (given : GivenOptions) (name : String) : Bool :=
  given.any (·.1 == name)

/-- The values of an option. -/
def all (given : GivenOptions) (name : String) : List String :=
  (given.filter (·.1 == name)).map (·.2)

/-- The value of an option. -/
def value? (given : GivenOptions) (name : String) : Option String :=
  (given.all name).head?

/-- Add an option, unless it was given before and is no list. -/
def add (given : GivenOptions) (spec : OptionSpec) (value : String) :
    Except Refusal GivenOptions :=
  if spec.kind ≠ .values ∧ given.has spec.name then .error .usage
  else .ok (given ++ [(spec.name, value)])

end GivenOptions

namespace Arguments

/-- The option for the log level. -/
def logLevel : OptionSpec := ⟨"log-level", none, .value⟩

/-- The options that name a machine. -/
def sourceOptions : List OptionSpec :=
  [⟨"machine", some 'm', .value⟩, ⟨"builtin", some 'b', .value⟩]

/-- The options of a run. -/
def runOptions : List OptionSpec :=
  [⟨"config", none, .value⟩, ⟨"max-steps", none, .value⟩, ⟨"trace", none, .flag⟩]

/-- The options of each command. -/
def optionsOf? (command : String) : Option (List OptionSpec) :=
  let shared := [logLevel, ⟨"help", some 'h', .flag⟩]
  if command = "run" then
    some (shared ++ sourceOptions ++ runOptions ++
      [⟨"tape", some 't', .values⟩, ⟨"debug", some 'd', .flag⟩, ⟨"json", none, .flag⟩])
  else if command = "batch" then
    some (shared ++ sourceOptions ++ runOptions ++
      [⟨"cases", some 'c', .value⟩, ⟨"output-tape", none, .value⟩, ⟨"json", none, .flag⟩])
  else if command = "check" then some (shared ++ sourceOptions)
  else if command = "convert" then some (shared ++ sourceOptions ++ [⟨"to", none, .value⟩])
  else if command = "list" then some shared
  else none

/-- The options before a command. -/
def leadingOptions : List OptionSpec :=
  [logLevel, ⟨"help", some 'h', .flag⟩, ⟨"version", some 'V', .flag⟩]

/-- Whether an argument is an option rather than a value. A single hyphen is a value. -/
def isOption (argument : List Char) : Bool :=
  match argument with
  | '-' :: _ :: _ => true
  | _ => false

/-- The next argument as the value of an option. -/
def takeValue (arguments : List (List Char)) : Except Refusal (String × List (List Char)) :=
  match arguments with
  | [] => .error .usage
  | argument :: rest =>
    if isOption argument then .error .usage else .ok (String.ofList argument, rest)

/-- Add a flag; asking for help ends the reading. -/
def addFlag (given : GivenOptions) (spec : OptionSpec) : Except Refusal GivenOptions :=
  if spec.name = "help" ∨ spec.name = "version" then .error .help else given.add spec ""

/-- Read an option with two hyphens, given what follows them. -/
def readLong (specs : List OptionSpec) (given : GivenOptions) (option : List Char)
    (rest : List (List Char)) : Except Refusal (GivenOptions × List (List Char)) := do
  let (name, attached) := option.span (· != '=')
  match specs.find? (·.name.toList == name), attached with
  | none, _ => throw .usage
  | some spec, [] =>
    if spec.kind = .flag then return (← addFlag given spec, rest)
    else
      let (value, rest) ← takeValue rest
      return (← given.add spec value, rest)
  | some spec, _ :: value =>
    if spec.kind = .flag then throw .usage
    else return (← given.add spec (String.ofList value), rest)

/-- Read letters after one hyphen. Flags may share a hyphen; the first option with a value takes the
rest of the argument. -/
def readShort (specs : List OptionSpec) (given : GivenOptions) (rest : List (List Char)) :
    List Char → Except Refusal (GivenOptions × List (List Char))
  | [] => .ok (given, rest)
  | letter :: letters =>
    match specs.find? (·.letter == some letter) with
    | none => .error .usage
    | some spec =>
      if spec.kind = .flag then do readShort specs (← addFlag given spec) rest letters
      else
        match letters with
        | [] => do
          let (value, rest) ← takeValue rest
          return (← given.add spec value, rest)
        | '=' :: value => do return (← given.add spec (String.ofList value), rest)
        | value => do return (← given.add spec (String.ofList value), rest)

/-- Read options up to the first argument that is none, which is returned with what follows it.
Every round takes an argument, so `fuel` suffices once it exceeds their number. After two
hyphens nothing is an option. -/
def readOptions (specs : List OptionSpec) :
    (fuel : Nat) → GivenOptions → List (List Char) →
      Except Refusal (GivenOptions × Option (List Char) × List (List Char))
  | 0, _, _ => .error .usage
  | _, given, [] => .ok (given, none, [])
  | fuel + 1, given, argument :: rest =>
    match argument with
    | ['-', '-'] => if rest.isEmpty then .ok (given, none, []) else .error .usage
    | '-' :: '-' :: option => do
      let (given, rest) ← readLong specs given option rest
      readOptions specs fuel given rest
    | '-' :: letter :: letters => do
      let (given, rest) ← readShort specs given rest (letter :: letters)
      readOptions specs fuel given rest
    | _ => .ok (given, some argument, rest)

/-- The value of an option for a path, which may not be empty. -/
def path? (given : GivenOptions) (name : String) : Except Refusal (Option String) :=
  match given.value? name with
  | some "" => .error .usage
  | path => .ok path

/-- The value of an option for a number. -/
def number? (given : GivenOptions) (name : String) : Except Refusal (Option Nat) :=
  match given.value? name with
  | none => .ok none
  | some numeral =>
    match Text.wordOf? numeral with
    | some number => .ok (some number)
    | none => .error .usage

/-- Where the machine comes from: exactly one of its options has to be given. -/
def machineSource (given : GivenOptions) : Except Refusal MachineSource := do
  match ← path? given "machine", given.value? "builtin" with
  | some path, none => return .file path
  | none, some name => return .builtin name
  | _, _ => throw .usage

/-- The options of a run. -/
def runOptionsOf (given : GivenOptions) : Except Refusal RunOptions := do
  let config ← path? given "config"
  let maxSteps ← number? given "max-steps"
  return { config, maxSteps, trace := given.has "trace" }

/-- The format to convert to. -/
def targetFormat (given : GivenOptions) : Except Refusal Format :=
  match given.value? "to" with
  | some "json" => .ok .json
  | some "text" => .ok .listing
  | _ => .error .usage

/-- The command of its name and options. -/
def command (name : String) (given : GivenOptions) : Except Refusal Command := do
  if name = "run" then
    return .run (← machineSource given) (given.all "tape") (← runOptionsOf given)
      (given.has "debug") (given.has "json")
  else if name = "batch" then
    return .batch (← machineSource given) (← path? given "cases")
      ((← number? given "output-tape").getD 0) (← runOptionsOf given) (given.has "json")
  else if name = "check" then return .check (← machineSource given)
  else if name = "convert" then
    return .convert (← machineSource given) (← targetFormat given)
  else return .list

/-- Read the arguments of an invocation. -/
def read (arguments : List String) : Except Refusal Invocation := do
  let arguments := arguments.map String.toList
  let fuel := arguments.length + 1
  let (leading, name?, rest) ← readOptions leadingOptions fuel [] arguments
  match name? with
  | none => throw .usage
  | some chars =>
    let name := String.ofList chars
    if name = "help" then throw .help
    match optionsOf? name with
    | none => throw .usage
    | some specs =>
      let (given, extra, _) ← readOptions specs fuel [] rest
      if extra.isSome then throw .usage
      let command ← command name given
      let logLevel := (given.value? "log-level").orElse fun _ => leading.value? "log-level"
      return { logLevel := logLevel.getD "warn", command }

end Arguments

end TapeMachine
