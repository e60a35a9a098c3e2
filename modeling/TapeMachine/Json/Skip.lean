import TapeMachine.Json.Numbers
import TapeMachine.Json.Strings

/-!
# Skipping JSON values

A value that nobody asked for has to be JSON, but it may be nested to any depth. The open
brackets are kept in a list, so the depth of the nesting is not the depth of a recursion.
-/

namespace TapeMachine.Json

/-- Whether a character is insignificant between tokens. -/
def isSpace (c : Char) : Bool :=
  c == ' ' || c == '\n' || c == '\t' || c == '\r'

/-- The text from its next token on. -/
def skipSpace (text : List Char) : List Char :=
  text.dropWhile isSpace

/-- Read the rest of a fixed word. -/
def readIdent : (word text : List Char) → Except Error (List Char)
  | [], text => .ok text
  | _ :: _, [] => .error .endInValue
  | expected :: word, c :: text =>
    if c = expected then readIdent word text else .error .expectedIdent

/-- An open bracket. -/
inductive Frame where
  | list
  | object
  deriving DecidableEq, Repr

/-- Skip a scalar, or open a bracket. -/
def skipOpening (text : List Char) : Except Error (Option Frame × List Char) :=
  match skipSpace text with
  | [] => .error .endInValue
  | c :: rest =>
    if c = 'n' then do return (none, ← readIdent ['u', 'l', 'l'] rest)
    else if c = 't' then do return (none, ← readIdent ['r', 'u', 'e'] rest)
    else if c = 'f' then do return (none, ← readIdent ['a', 'l', 's', 'e'] rest)
    else if c = '-' ∨ c.isDigit then do return (none, ← skipNumber (c :: rest))
    else if c = '"' then do return (none, ← skipString rest)
    else if c = '[' then .ok (some .list, rest)
    else if c = '\x7b' then .ok (some .object, rest)
    else .error .expectedValue

/-- Close brackets until another value has to follow. The answer is the text after the last
closed bracket with no frames left, or the text of the next item with the frames that are still
open. After a value, `afterValue` is set and a comma has to stand before the next item. -/
def skipClosing (afterValue : Bool) : List Frame → List Char → Except Error (List Frame × List Char)
  | [], text => .ok ([], text)
  | frame :: outer, text =>
    match skipSpace text, frame with
    | [], .list => .error .endInList
    | [], .object => .error .endInObject
    | c :: rest, frame =>
      if c = ',' ∧ afterValue then .ok (frame :: outer, rest)
      else if (c = ']' ∧ frame = .list) ∨ (c = '\x7d' ∧ frame = .object) then
        skipClosing true outer rest
      else if afterValue then
        .error (if frame = .list then .expectedListCommaOrEnd else .expectedObjectCommaOrEnd)
      else .ok (frame :: outer, c :: rest)

/-- Skip the key of a member and its colon. -/
def skipKey (text : List Char) : Except Error (List Char) :=
  match skipSpace text with
  | [] => .error .endInObject
  | '"' :: rest => do
    let rest ← skipString rest
    match skipSpace rest with
    | ':' :: rest => return rest
    | [] => throw .endInObject
    | _ :: _ => throw .expectedColon
  | _ :: _ => .error .keyNotString

/-- Skip values inside the open `frames` until all of them are closed. Each round takes at least one
character, so `fuel` suffices once it exceeds the length of the text. -/
def skipFrames : (fuel : Nat) → (frames : List Frame) → List Char → Except Error (List Char)
  | 0, _, _ => .error .endInValue
  | fuel + 1, frames, text => do
    let (opened, rest) ← skipOpening text
    let (frames, rest) ←
      match opened with
      | some frame => skipClosing false (frame :: frames) rest
      | none => skipClosing true frames rest
    match frames with
    | [] => return rest
    | .list :: _ => skipFrames fuel frames rest
    | .object :: _ => skipFrames fuel frames (← skipKey rest)

/-- Skip one value of a text of at most `limit` characters. -/
def skipValue (limit : Nat) (text : List Char) : Except Error (List Char) :=
  skipFrames (limit + 1) [] text

end TapeMachine.Json
