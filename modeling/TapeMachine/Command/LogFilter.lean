import TapeMachine.Command.ValuePattern
import TapeMachine.Event
import TapeMachine.Text.Blank
import TapeMachine.Text.Octets
import TapeMachine.Text.Split
import TapeMachine.Text.Word

/-!
# Log filters

A log filter is a list of directives separated by commas. A directive is a level, or a target, a
condition in brackets and a level, of which every part may be missing. The condition names an
enclosing activity, or in braces a field, or both. Of the directives that apply to an event, the
most specific one decides; without any directive only errors pass.
-/

namespace TapeMachine

/-- The least severe level that passes, by its number; zero lets nothing pass. -/
abbrev Threshold := Nat

/-- Why a directive cannot be read. -/
inductive DirectiveError where
  | invalid
  | invalidLevel
  | invalidPattern (problem : ValuePattern.Problem)
  deriving DecidableEq, Repr

/-- The wording of an error. -/
def DirectiveError.message : DirectiveError → String
  | .invalid => "invalid filter directive"
  | .invalidLevel =>
    "error parsing level filter: expected one of \"off\", \"error\", \"warn\", \"info\", " ++
      "\"debug\", \"trace\", or a number 0-5"
  | .invalidPattern problem => "invalid field filter: " ++ problem.message

/-- A condition on a field. -/
structure FieldCondition where
  name : String
  /-- Whether the field has to have a certain value. Such conditions are about enclosing
  activities only. -/
  hasValue : Bool
  deriving DecidableEq, Repr

/-- Read a condition: the name of a field, or a name, an equals sign and a pattern that ends
before the next equals sign. -/
def FieldCondition.read (text : List Char) : Except DirectiveError FieldCondition :=
  match Text.splitOn '=' text with
  | name :: pattern :: _ =>
    match ValuePattern.check pattern with
    | .ok () => .ok { name := String.ofList name, hasValue := true }
    | .error problem => .error (.invalidPattern problem)
  | _ => .ok { name := String.ofList text, hasValue := false }

namespace LogDirective

/-- The names of the thresholds, from the strictest. -/
def thresholdNames : List String := ["off", "error", "warn", "info", "debug", "trace"]

/-- The threshold that lets everything pass. -/
def everything : Threshold := 5

/-- Read a threshold: a name in any case, a number up to five, or nothing for errors only. -/
def threshold? (text : String) : Option Threshold :=
  match Text.wordOf? text with
  | some number => if number ≤ everything then some number else none
  | none =>
    if text = "" then some Level.error.rank
    else
      let name := text.toList.map Char.toLower
      thresholdNames.findIdx? (·.toList == name)

end LogDirective

/-- One directive of a filter. -/
structure LogDirective where
  /-- How the target of an event has to start. -/
  target : String := ""
  /-- The name of an enclosing activity. -/
  scope : Option String := none
  field : Option FieldCondition := none
  threshold : Threshold := LogDirective.everything
  deriving DecidableEq, Repr

namespace LogDirective

/-- What the next character of a directive belongs to. Pieces begin at the octet `start`. -/
inductive Phase where
  | start
  /-- A level or a target. -/
  | name
  | scope (start : Nat)
  | field (start : Nat)
  /-- A field was closed; its bracket has to be closed now. -/
  | afterField
  /-- A bracket was closed; only a level may follow. -/
  | afterScope
  | level (start : Nat)
  deriving DecidableEq, Repr

/-- Whether a directive may start with this character. -/
def isStart (c : Char) : Bool :=
  Text.isAlphanumeric c || c == '-' || c == ':' || c == '_'

/-- Read the threshold after an equals sign; nothing there lets everything pass. -/
def readThreshold (text : List Char) : Except DirectiveError Threshold :=
  if text.isEmpty then .ok everything
  else
    match threshold? (String.ofList text) with
    | some threshold => .ok threshold
    | none => .error .invalidLevel

/-- Take one character at the octet `offset` of a directive. -/
def advance (cut : (start stop : Nat) → List Char) (directive : LogDirective) (offset : Nat)
    (c : Char) : Phase → Except DirectiveError (LogDirective × Phase)
  | .start =>
    if c = '[' then .ok (directive, .scope (offset + 1))
    else if isStart c then .ok (directive, .name)
    else .error .invalid
  | .name =>
    let target := String.ofList (cut 0 offset)
    if c = '=' then .ok ({ directive with target }, .level (offset + 1))
    else if c = '[' then .ok ({ directive with target }, .scope (offset + 1))
    else .ok (directive, .name)
  | .scope start =>
    let name := String.ofList (cut start offset)
    if c = ']' then .ok ({ directive with scope := some name }, .afterScope)
    else if c = '\x7b' then
      let scope := if name = "" then none else some name
      .ok ({ directive with scope }, .field (offset + 1))
    else .ok (directive, .scope start)
  | .field start =>
    if c = '\x7d' then do
      let text := cut start offset
      if text.isEmpty then throw .invalid
      let field ← FieldCondition.read text
      return ({ directive with field := some field }, .afterField)
    else .ok (directive, .field start)
  | .afterField => if c = ']' then .ok (directive, .afterScope) else .error .invalid
  | .afterScope => if c = '=' then .ok (directive, .level (offset + 1)) else .error .invalid
  | .level start => .ok (directive, .level start)

/-- Read the rest of a directive, which is at the octet `offset`. -/
def readFrom (whole : List Char) (directive : LogDirective) (phase : Phase) (offset : Nat) :
    List Char → Except DirectiveError LogDirective
  | [] =>
    match phase with
    | .name =>
      let name := String.ofList whole
      match threshold? name with
      | some threshold => .ok { directive with threshold }
      | none => .ok { directive with target := name }
    | .level start => do
      return { directive with threshold := ← readThreshold (Text.dropOctets start whole) }
    | .afterScope => .ok directive
    | _ => .error .invalid
  | c :: rest => do
    let (directive, phase) ←
      advance (fun start stop => Text.cutOctets start stop whole) directive offset c phase
    readFrom whole directive phase (offset + c.utf8Size) rest

/-- Read a directive. It is walked without the white space at its ends, but the positions found
there are used to cut its pieces from the text as it is. -/
def read (text : List Char) : Except DirectiveError LogDirective :=
  readFrom text {} .start 0 (Text.trim text)

/-- Whether a directive applies to an event. There are no enclosing activities, so directives
about them never apply. -/
def appliesTo (directive : LogDirective) (event : Event) : Bool :=
  directive.scope.isNone && event.target.startsWith directive.target &&
    directive.field.all fun field => !field.hasValue && event.fieldNames.contains field.name

/-- Whether a directive is at most as specific as another one that applies to the same event:
the longer target is more specific, then a condition on a field, then the greater field name. -/
def isCoveredBy (directive other : LogDirective) : Bool :=
  let length := directive.target.utf8ByteSize
  let otherLength := other.target.utf8ByteSize
  length < otherLength || length == otherLength &&
    match directive.field, other.field with
    | none, _ => true
    | some _, none => false
    | some field, some otherField => field.name ≤ otherField.name

end LogDirective

/-- The directives of a filter. -/
abbrev LogFilter := List LogDirective

namespace LogFilter

/-- The directive texts of a filter. -/
def directiveTexts (text : String) : List (List Char) :=
  (Text.splitOn ',' text.toList).filter (!·.isEmpty)

/-- Read a filter in which every directive has to be valid. -/
def read (text : String) : Except DirectiveError LogFilter :=
  (directiveTexts text).mapM LogDirective.read

/-- Read a filter without its invalid directives, and tell what was ignored. -/
def readValid (text : String) : LogFilter × List String :=
  let directives := (directiveTexts text).map fun piece => (piece, LogDirective.read piece)
  (directives.filterMap fun (_, directive) => directive.toOption,
    directives.filterMap fun (piece, directive) =>
      match directive with
      | .ok _ => none
      | .error error => some ("ignoring `" ++ String.ofList piece ++ "`: " ++ error.message))

/-- The filter in which nothing was said: errors pass. -/
def errorsOnly : LogFilter := [{ threshold := Level.error.rank }]

/-- The most specific directive that applies to an event; of equal ones, the last. -/
def directiveFor? (filter : LogFilter) (event : Event) : Option LogDirective :=
  let directives := if filter.isEmpty then errorsOnly else filter
  (directives.filter (·.appliesTo event)).foldl
    (fun best directive =>
      if best.all (·.isCoveredBy directive) then some directive else best)
    none

/-- Whether an event passes a filter. -/
def passes (filter : LogFilter) (event : Event) : Bool :=
  (filter.directiveFor? event).any fun directive => event.level.rank ≤ directive.threshold

/-- The filter text for a log level. A traced run is reported at the level of information, so a
stricter level is raised to it for this program. -/
def textForLevel (level : String) (trace : Bool) : String :=
  let showsInfo := (LogDirective.threshold? level).any (Level.info.rank ≤ ·)
  if trace && !showsInfo then level ++ ",mtur=info" else level

/-- The filter of a program and what to say about ignored directives: the configured filter if it is
valid, otherwise the filter for the log level. -/
def choose (configured : Option String) (level : String) (trace : Bool) :
    LogFilter × List String :=
  match configured.map read with
  | some (.ok filter) => (filter, [])
  | _ => readValid (textForLevel level trace)

end LogFilter

end TapeMachine
