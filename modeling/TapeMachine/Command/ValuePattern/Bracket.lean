import TapeMachine.Command.ValuePattern.Escape

/-!
# Brackets in a value pattern

A set of characters: members and ranges, classes by name, nested brackets, and the operators
between sets. Besides what is well formed, the height of a set counts, since patterns may be
nested to a limited height only.
-/

namespace TapeMachine.ValuePattern

/-- The height of several things in a row: a row of two or more is one higher than the highest. -/
def rowHeight : List Nat → Nat
  | [] => 0
  | [height] => height
  | heights => heights.foldl max 0 + 1

/-- A set that is not closed yet. -/
structure OpenSet where
  /-- The heights of the members since the last operator. -/
  members : List Nat := []
  /-- The height of what stands before the last operator. -/
  left : Option Nat := none
  deriving DecidableEq, Repr

namespace OpenSet

/-- Add a member of a height. -/
def add (set : OpenSet) (height : Nat) : OpenSet :=
  { set with members := height :: set.members }

/-- The height of the set so far. -/
def height (set : OpenSet) : Nat :=
  match set.left with
  | none => rowHeight set.members
  | some left => max left (rowHeight set.members) + 1

/-- The set after an operator. -/
def combine (set : OpenSet) : OpenSet :=
  { members := [], left := some set.height }

end OpenSet

namespace Bracket

/-- The names of classes. -/
def classNames : List String :=
  ["alnum", "alpha", "ascii", "blank", "cntrl", "digit", "graph", "lower", "print", "punct",
    "space", "upper", "word", "xdigit"]

/-- Read a class by name after its bracket, and tell whether it is negated. -/
def readNamedClass : List Char → Option (Bool × List Char)
  | ':' :: text =>
    let (negated, text) :=
      match text with
      | '^' :: rest => (true, rest)
      | _ => (false, text)
    let (name, rest) := text.span (· != ':')
    match rest with
    | ':' :: ']' :: rest =>
      if classNames.contains (String.ofList name) then some (negated, rest) else none
    | _ => none
  | _ => none

/-- Read a character, or nothing for a class, which has to be acceptable. -/
def readItem (modes : Modes) : List Char → Option (Option Char × List Char)
  | [] => none
  | '\\' :: rest =>
    match Escape.read modes rest with
    | some (.literal c _, rest) => if modes.acceptsMember c then some (some c, rest) else none
    | some (.letterClass negated, rest) =>
      if modes.acceptsLetterClass negated then some (none, rest) else none
    | _ => none
  | c :: rest => if modes.acceptsMember c then some (some c, rest) else none

/-- Whether a text goes on with the second half of a range. -/
def continuesRange (modes : Modes) : List Char → Bool
  | '-' :: rest => modes.look rest != some ']' && modes.look rest != some '-'
  | _ => false

/-- Read a character, a class or a range of characters. -/
def readRange (modes : Modes) (text : List Char) : Option (List Char) := do
  let (first, rest) ← readItem modes text
  let rest := modes.skip rest
  if continuesRange modes rest then
    let (last, rest) ← readItem modes (modes.skip (rest.drop 1))
    match first, last with
    | some first, some last => if first ≤ last then some rest else none
    | _, _ => none
  else some rest

/-- Read hyphens, which are members at the start of a set. -/
def readHyphens (modes : Modes) : (fuel : Nat) → OpenSet → List Char → OpenSet × List Char
  | fuel + 1, set, '-' :: rest => readHyphens modes fuel (set.add 0) (modes.skip rest)
  | _, set, text => (set, text)

/-- Open a set after its bracket. A caret negates it; hyphens, or else a closing bracket, are
members at its start. -/
def openSet (modes : Modes) (nested : Bool) (text : List Char) : Option (OpenSet × List Char) := do
  let text := modes.skip text
  let (negated, text) :=
    match text with
    | '^' :: rest => (true, modes.skip rest)
    | _ => (false, text)
  if negated && !modes.acceptsNegation nested then none
  let (set, text) := readHyphens modes text.length {} text
  let (set, text) :=
    match set.members, text with
    | [], ']' :: rest => (set.add 0, modes.skip rest)
    | _, _ => (set, text)
  if set.members.isEmpty || modes.acceptsMember '-' then some (set, text) else none

/-- Read up to the end of the outermost of several nested sets, and tell its height. Each round
takes at least one character. -/
def close (modes : Modes) :
    (fuel : Nat) → (set : OpenSet) → (outer : List OpenSet) → List Char → Option (Nat × List Char)
  | 0, _, _, _ => none
  | fuel + 1, set, outer, text =>
    match modes.skip text with
    | [] => none
    | c :: rest =>
      if c = '[' then
        match readNamedClass rest with
        | some (negated, rest) =>
          if modes.acceptsNamedClass negated then close modes fuel (set.add 0) outer rest
          else none
        | none =>
          (openSet modes true rest).bind fun (inner, rest) =>
            close modes fuel inner (set :: outer) rest
      else if c = ']' then
        match outer with
        | [] => some (set.height + 1, rest)
        | around :: outer => close modes fuel (around.add (set.height + 1)) outer rest
      else if "&-~".toList.contains c ∧ rest.head? = some c then
        close modes fuel set.combine outer (rest.drop 1)
      else (readRange modes (c :: rest)).bind fun rest => close modes fuel (set.add 0) outer rest

/-- Read a set after its opening bracket, and tell its height. -/
def read (modes : Modes) (text : List Char) : Option (Nat × List Char) := do
  let (set, rest) ← openSet modes false text
  close modes (rest.length + 1) set [] rest

end Bracket

end TapeMachine.ValuePattern
