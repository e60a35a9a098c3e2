/-!
# JSON values and their written form

Values as this library writes them: numbers are natural, and the members of an object keep their
order. One printer serves both layouts; `Layout.pretty` puts every item on a line of its own and
`Layout.compact` writes no white space at all.
-/

namespace TapeMachine

/-- A JSON value to be written. -/
inductive Json where
  | null
  | bool (value : Bool)
  | number (value : Nat)
  | string (value : String)
  | array (items : List Json)
  | object (members : List (String × Json))
  deriving Inhabited

namespace Json

/-- A list of strings. -/
def strings (values : List String) : Json :=
  .array (values.map .string)

/-- A list of one-character strings. -/
def symbols (values : List Char) : Json :=
  .array (values.map fun symbol => .string symbol.toString)

/-- A list of numbers. -/
def numbers (values : List Nat) : Json :=
  .array (values.map .number)

/-- The lower-case hexadecimal digit of a number below sixteen. -/
def hexDigit (value : Nat) : Char :=
  Nat.digitChar (value % 16)

/-- The written form of one character of a string: quotes, backslashes and control characters are
escaped, with a letter where there is one. -/
def escapeChar (c : Char) : List Char :=
  if c = '"' then ['\\', '"']
  else if c = '\\' then ['\\', '\\']
  else if c = '\x08' then ['\\', 'b']
  else if c = '\x0c' then ['\\', 'f']
  else if c = '\n' then ['\\', 'n']
  else if c = '\r' then ['\\', 'r']
  else if c = '\t' then ['\\', 't']
  else if c.toNat < 0x20 then
    ['\\', 'u', '0', '0', hexDigit (c.toNat / 16), hexDigit c.toNat]
  else [c]

/-- The written form of a string. -/
def renderString (value : String) : List Char :=
  '"' :: value.toList.flatMap escapeChar ++ ['"']

/-- Where a printer breaks lines and what follows the key of a member. -/
structure Layout where
  /-- What separates an item at this depth from what stands before it. -/
  lineBreak : Nat → List Char
  /-- What stands between a key and its value. -/
  colon : List Char

/-- Every item on a line of its own, indented by two spaces for each level. -/
def Layout.pretty : Layout where
  lineBreak depth := '\n' :: List.replicate (2 * depth) ' '
  colon := [':', ' ']

/-- No white space. -/
def Layout.compact : Layout where
  lineBreak _ := []
  colon := [':']

mutual

/-- Write a value whose lines are indented by `depth` levels. -/
def renderAt (layout : Layout) (depth : Nat) : Json → List Char
  | .null => ['n', 'u', 'l', 'l']
  | .bool true => ['t', 'r', 'u', 'e']
  | .bool false => ['f', 'a', 'l', 's', 'e']
  | .number value => Nat.toDigits 10 value
  | .string value => renderString value
  | .array [] => ['[', ']']
  | .array (item :: items) =>
    '[' :: layout.lineBreak (depth + 1) ++ renderAt layout (depth + 1) item ++
      renderItems layout (depth + 1) items ++ layout.lineBreak depth ++ [']']
  | .object [] => ['\x7b', '\x7d']
  | .object ((key, value) :: members) =>
    '\x7b' :: layout.lineBreak (depth + 1) ++ renderString key ++ layout.colon ++
      renderAt layout (depth + 1) value ++ renderMembers layout (depth + 1) members ++
      layout.lineBreak depth ++ ['\x7d']

/-- Write the items of an array after its first. -/
def renderItems (layout : Layout) (depth : Nat) : List Json → List Char
  | [] => []
  | item :: items =>
    ',' :: layout.lineBreak depth ++ renderAt layout depth item ++ renderItems layout depth items

/-- Write the members of an object after its first. -/
def renderMembers (layout : Layout) (depth : Nat) : List (String × Json) → List Char
  | [] => []
  | (key, value) :: members =>
    ',' :: layout.lineBreak depth ++ renderString key ++ layout.colon ++
      renderAt layout depth value ++ renderMembers layout depth members

end

/-- Write a value in a layout. -/
def render (layout : Layout) (value : Json) : String :=
  String.ofList (renderAt layout 0 value)

end Json

end TapeMachine
