import TapeMachine.Command.ValuePattern.Bracket
import TapeMachine.Text.Alphanumeric

/-!
# Value patterns

A field condition of a log filter may describe the value of the field: by a number, or by a
regular expression. Values are compared with enclosing activities only, and there are none, so a
pattern is never matched; this module decides whether it could be. Braces never reach a pattern
closed, so counted repetitions are malformed.
-/

namespace TapeMachine.ValuePattern

/-- What is wrong with a pattern. -/
inductive Problem where
  | malformed
  /-- The pattern asks for the edge of a word, which is not supported. -/
  | wordEdge
  deriving DecidableEq, Repr

/-- The wording of a problem. -/
def Problem.message : Problem → String
  | .malformed => "error building NFA"
  | .wordEdge =>
    "unsupported regex feature for DFAs: cannot build DFAs for regexes with Unicode word " ++
      "boundaries; switch to ASCII word boundaries, or heuristically enable Unicode word " ++
      "boundaries or use a different regex engine"

/-- The greatest height to which a pattern may be nested. -/
def heightLimit : Nat := 250

/-- The alternatives of a group that is not closed yet. -/
structure OpenGroup where
  /-- The heights of the alternatives before the last. -/
  alternatives : List Nat := []
  /-- The heights of the elements of the last alternative, last first. -/
  elements : List Nat := []
  /-- Whether the last element can be repeated. -/
  operand : Bool := false
  deriving DecidableEq, Repr

namespace OpenGroup

/-- Add an element that can be repeated. -/
def add (group : OpenGroup) (height : Nat) : OpenGroup :=
  { group with elements := height :: group.elements, operand := true }

/-- Add flags. -/
def addFlags (group : OpenGroup) : OpenGroup :=
  { group with elements := 0 :: group.elements, operand := false }

/-- Start another alternative. -/
def alternate (group : OpenGroup) : OpenGroup :=
  { alternatives := rowHeight group.elements :: group.alternatives }

/-- Repeat the last element, if it can be repeated. -/
def repeatLast? (group : OpenGroup) : Option OpenGroup :=
  match group.elements with
  | height :: elements =>
    if group.operand then some { group with elements := (height + 1) :: elements } else none
  | [] => none

/-- The height of the alternatives so far. -/
def height (group : OpenGroup) : Nat :=
  rowHeight (rowHeight group.elements :: group.alternatives)

end OpenGroup

/-- Read the name of a group up to its angle bracket. -/
def readName (text : List Char) : Option (List Char × List Char) :=
  let (name, rest) := text.span (· != '>')
  match name, rest with
  | first :: others, _ :: rest =>
    let starts := first == '_' || Text.isAlphabetic first
    let continues (c : Char) := "_.[]".toList.contains c || Text.isAlphanumeric c
    if starts && others.all continues then some (name, rest) else none
  | _, _ => none

/-- How a group begins. -/
inductive GroupStart where
  | named (name : List Char)
  /-- A group without a name, in which flags hold. -/
  | unnamed (flags : List Char)
  /-- Flags in parentheses, which hold for what follows. -/
  | flags (flags : List Char)
  deriving DecidableEq, Repr

/-- Read the start of a group after its parenthesis. -/
def readGroup : List Char → Option (GroupStart × List Char)
  | '?' :: 'P' :: '<' :: rest => (readName rest).map fun (name, rest) => (.named name, rest)
  | '?' :: '<' :: rest => (readName rest).map fun (name, rest) => (.named name, rest)
  | '?' :: rest =>
    let (flags, rest) := rest.span fun c => c != ':' && c != ')'
    match rest with
    | ':' :: rest => if Modes.areFlags flags then some (.unnamed flags, rest) else none
    | _ :: rest =>
      if Modes.areFlags flags && !flags.isEmpty then some (.flags flags, rest) else none
    | [] => none
  | rest => some (.unnamed [], rest)

/-- How far a pattern was read. -/
structure Progress where
  modes : Modes := {}
  group : OpenGroup := {}
  /-- The groups around the current one, with the modes that hold after it. -/
  outer : List (OpenGroup × Modes) := []
  /-- The names of groups. -/
  names : List (List Char) := []
  /-- Whether the pattern asks for the edge of a word. -/
  wordEdge : Bool := false

namespace Progress

/-- Add an element that can be repeated. -/
def add (progress : Progress) (height : Nat) : Progress :=
  { progress with group := progress.group.add height }

/-- Open a group in which flags hold. -/
def openGroup (progress : Progress) (flags : List Char) : Progress :=
  { progress with
    modes := progress.modes.switch true flags
    group := {}
    outer := (progress.group, progress.modes) :: progress.outer }

/-- Take the start of a group. A name may be used once. -/
def start? (progress : Progress) : GroupStart → Option Progress
  | .flags flags =>
    some { progress with
      modes := progress.modes.switch true flags
      group := progress.group.addFlags }
  | .unnamed flags => some (progress.openGroup flags)
  | .named name =>
    if progress.names.contains name then none
    else some { progress.openGroup [] with names := name :: progress.names }

/-- Close the innermost group. -/
def close? (progress : Progress) : Option Progress :=
  match progress.outer with
  | [] => none
  | (group, modes) :: outer =>
    some { progress with modes, group := group.add (progress.group.height + 1), outer }

/-- Take an escape. -/
def escape? (progress : Progress) : Escape → Option Progress
  | .literal c octet =>
    if progress.modes.acceptsLiteral c octet then some (progress.add 0) else none
  | .letterClass negated =>
    if progress.modes.acceptsLetterClass negated then some (progress.add 0) else none
  | .textEnd => some (progress.add 0)
  | .wordEdge =>
    some { progress.add 0 with wordEdge := progress.wordEdge || progress.modes.unicode }

/-- Take the first token of a text that starts with `c`. -/
def token? (progress : Progress) (c : Char) (rest : List Char) : Option (Progress × List Char) :=
  if c = '(' then do
    let (start, rest) ← readGroup (progress.modes.skip rest)
    return (← progress.start? start, rest)
  else if c = ')' then progress.close?.map (·, rest)
  else if c = '|' then some ({ progress with group := progress.group.alternate }, rest)
  else if c = '[' then do
    let (height, rest) ← Bracket.read progress.modes rest
    return (progress.add height, rest)
  else if c = '*' ∨ c = '+' ∨ c = '?' then do
    let group ← progress.group.repeatLast?
    return ({ progress with group }, if rest.head? = some '?' then rest.drop 1 else rest)
  else if c = '\x7b' then none
  else if c = '\\' then do
    let (escape, rest) ← Escape.read progress.modes rest
    return (← progress.escape? escape, rest)
  else if c = '^' ∨ c = '$' then some (progress.add 0, rest)
  else if c = '.' then if progress.modes.unicode then some (progress.add 0, rest) else none
  else if progress.modes.acceptsLiteral c false then some (progress.add 0, rest)
  else none

/-- The verdict on a pattern that was read to its end. -/
def verdict (progress : Progress) : Except Problem Unit :=
  if !progress.outer.isEmpty || heightLimit < progress.group.height then .error .malformed
  else if progress.wordEdge then .error .wordEdge
  else .ok ()

/-- The verdict on the rest of a pattern. Each round takes at least one character. -/
def judge : (fuel : Nat) → Progress → List Char → Except Problem Unit
  | 0, _, _ => .error .malformed
  | fuel + 1, progress, text =>
    match progress.modes.skip text with
    | [] => progress.verdict
    | c :: rest =>
      match progress.token? c rest with
      | some (progress, rest) => judge fuel progress rest
      | none => .error .malformed

end Progress

/-- Whether a text is a decimal numeral, with a point and an exponent if need be. -/
def isDecimal (text : List Char) : Bool :=
  let (whole, rest) := text.span Char.isDigit
  let (fraction, rest) :=
    match rest with
    | '.' :: rest => rest.span Char.isDigit
    | _ => ([], rest)
  let exponent :=
    match rest with
    | [] => true
    | mark :: rest =>
      let digits :=
        match rest with
        | '+' :: digits => digits
        | '-' :: digits => digits
        | digits => digits
      (mark == 'e' || mark == 'E') && !digits.isEmpty && digits.all Char.isDigit
  !(whole.isEmpty && fraction.isEmpty) && exponent

/-- Whether a text is a number with a plus sign. -/
def isPositiveNumber : List Char → Bool
  | '+' :: number =>
    isDecimal number ||
      ["inf", "infinity", "nan"].contains (String.ofList (number.map Char.toLower))
  | _ => false

/-- The verdict on a pattern. A number stands for itself, also where its plus sign would have
nothing to repeat. -/
def check (pattern : List Char) : Except Problem Unit :=
  if isPositiveNumber pattern then .ok () else Progress.judge (pattern.length + 1) {} pattern

end TapeMachine.ValuePattern
