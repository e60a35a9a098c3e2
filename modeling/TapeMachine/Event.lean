import TapeMachine.Text.Quoted

/-!
# Log events

What the library reports while it works: each event has a level, the part of the library it
comes from, a message and named fields. Events are values; whether anybody prints them is
decided elsewhere.
-/

namespace TapeMachine

/-- The severity of an event, from the most to the least severe. -/
inductive Level where
  | error
  | warn
  | info
  | debug
  | trace
  deriving DecidableEq, Repr

namespace Level

/-- The number of a level: less severe levels have larger numbers. -/
def rank : Level → Nat
  | .error => 1
  | .warn => 2
  | .info => 3
  | .debug => 4
  | .trace => 5

/-- The printed name of a level. -/
def name : Level → String
  | .error => "ERROR"
  | .warn => "WARN"
  | .info => "INFO"
  | .debug => "DEBUG"
  | .trace => "TRACE"

end Level

/-- The value of a field of an event. -/
inductive FieldValue where
  | number (value : Nat)
  | text (value : String)
  deriving DecidableEq, Repr

/-- One report of the library. -/
inductive Event where
  /-- A single step is about to apply a rule. -/
  | applying (step : Nat) (state next : String)
  /-- A traced run passes through a configuration. -/
  | sampled (step : Nat) (state : String) (symbols : List Char) (heads : List Nat)
  /-- A run reached an accepting state. -/
  | accepted (state : String) (steps : Nat)
  /-- A run reached a configuration without a rule. -/
  | rejected (state : String) (symbols : List Char) (steps : Nat)
  /-- A run needed more steps than it was allowed. -/
  | limitExceeded (maxSteps : Nat) (state : String) (heads : List Nat)
  /-- The source of a machine was read from a file of a format. -/
  | loading (path format : String)
  /-- A batch of cases starts. -/
  | runningBatch (machine : String) (cases : Nat)
  deriving DecidableEq, Repr

namespace Event

/-- The severity of an event. -/
def level : Event → Level
  | .applying .. => .trace
  | .sampled .. => .info
  | .accepted .. => .debug
  | .rejected .. => .debug
  | .limitExceeded .. => .warn
  | .loading .. => .debug
  | .runningBatch .. => .debug

/-- The target by which log filters name the origin of an event. -/
def target : Event → String
  | .loading .. => "mtur::loader"
  | .runningBatch .. => "mtur::batch"
  | _ => "mtur::machine"

/-- The message of an event. -/
def message : Event → String
  | .applying .. => "applying transition"
  | .sampled .. => "step"
  | .accepted .. => "machine accepted"
  | .rejected .. => "no transition matches, machine rejected"
  | .limitExceeded .. => "step limit exceeded"
  | .loading .. => "loading description"
  | .runningBatch .. => "running batch"

/-- The named fields of an event, in the order in which they are printed. -/
def fields : Event → List (String × FieldValue)
  | .applying step state next =>
    [("step", .number step), ("state", .text state), ("next", .text next)]
  | .sampled step state symbols heads =>
    [("step", .number step), ("state", .text state),
      ("symbols", .text (Text.symbolList symbols)), ("heads", .text (Text.numberList heads))]
  | .accepted state steps => [("state", .text state), ("steps", .number steps)]
  | .rejected state symbols steps =>
    [("state", .text state), ("symbols", .text (Text.symbolList symbols)),
      ("steps", .number steps)]
  | .limitExceeded maxSteps state heads =>
    [("max_steps", .number maxSteps), ("state", .text state),
      ("heads", .text (Text.numberList heads))]
  | .loading path format => [("path", .text path), ("format", .text format)]
  | .runningBatch machine cases => [("machine", .text machine), ("cases", .number cases)]

/-- The names of everything an event carries; its message counts as a field. -/
def fieldNames (event : Event) : List String :=
  "message" :: event.fields.map (·.1)

end Event

end TapeMachine
