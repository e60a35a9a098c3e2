import TapeMachine.Json.Error

/-!
# Reading JSON strings

The text of a string after its opening quote. The reader is a machine of phases that takes one
character at a time. A string that is kept has to pair the halves of its surrogate escapes; a string
that is skipped need not.
-/

namespace TapeMachine.Json

/-- The value of a hexadecimal digit. -/
def hexValue? (c : Char) : Option Nat :=
  if '0' ≤ c ∧ c ≤ '9' then some (c.toNat - 48)
  else if 'a' ≤ c ∧ c ≤ 'f' then some (c.toNat - 87)
  else if 'A' ≤ c ∧ c ≤ 'F' then some (c.toNat - 55)
  else none

/-- The character of a one-letter escape. -/
def letterEscape? (c : Char) : Option Char :=
  if c = '"' ∨ c = '\\' ∨ c = '/' then some c
  else if c = 'b' then some '\x08'
  else if c = 'f' then some '\x0c'
  else if c = 'n' then some '\n'
  else if c = 'r' then some '\r'
  else if c = 't' then some '\t'
  else none

/-- Whether at least `count` octets of text are left. -/
def hasOctets (count : Nat) : List Char → Bool
  | [] => count == 0
  | c :: rest => count ≤ c.utf8Size || hasOctets (count - c.utf8Size) rest

/-- A code unit that starts a surrogate pair. -/
def isLeadingHalf (unit : Nat) : Bool :=
  0xd800 ≤ unit && unit ≤ 0xdbff

/-- A code unit that ends a surrogate pair. -/
def isTrailingHalf (unit : Nat) : Bool :=
  0xdc00 ≤ unit && unit ≤ 0xdfff

/-- The character of a surrogate pair. -/
def pairedChar (leading trailing : Nat) : Char :=
  Char.ofNat ((leading - 0xd800) * 0x400 + (trailing - 0xdc00) + 0x10000)

/-- What the next character of a string belongs to. -/
inductive StringPhase where
  | plain
  /-- A backslash came before. -/
  | escape
  /-- Inside a code unit escape that still needs `missing + 1` digits. -/
  | digits (leading : Option Nat) (missing value : Nat)
  /-- The leading half of a pair came before; a second escape has to follow. -/
  | pairBackslash (leading : Nat)
  /-- The leading half of a pair and a backslash came before. -/
  | pairLetter (leading : Nat)
  deriving DecidableEq, Repr

/-- What a complete code unit escape of a kept string means. -/
inductive UnitMeaning where
  | char (c : Char)
  | leading (unit : Nat)
  | lone
  deriving DecidableEq, Repr

/-- The meaning of a code unit after an optional leading half. -/
def unitMeaning (leading : Option Nat) (unit : Nat) : UnitMeaning :=
  match leading with
  | some first => if isTrailingHalf unit then .char (pairedChar first unit) else .lone
  | none =>
    if isTrailingHalf unit then .lone
    else if isLeadingHalf unit then .leading unit
    else .char (Char.ofNat unit)

/-- Read the rest of a kept string. The characters read so far are `done`, last first. -/
def readStringFrom (phase : StringPhase) (done : List Char) :
    List Char → Except Error (List Char × List Char)
  | [] => .error .endInString
  | c :: rest =>
    match phase with
    | .plain =>
      if c = '"' then .ok (done.reverse, rest)
      else if c = '\\' then readStringFrom .escape done rest
      else if c.toNat < 0x20 then .error .controlCharacter
      else readStringFrom .plain (c :: done) rest
    | .escape =>
      if c = 'u' then
        if hasOctets 4 rest then readStringFrom (.digits none 3 0) done rest
        else .error .endInString
      else
        match letterEscape? c with
        | some char => readStringFrom .plain (char :: done) rest
        | none => .error .invalidEscape
    | .digits leading missing value =>
      match hexValue? c with
      | none => .error .invalidEscape
      | some digit =>
        let value := value * 16 + digit
        match missing with
        | missing + 1 => readStringFrom (.digits leading missing value) done rest
        | 0 =>
          match unitMeaning leading value with
          | .char char => readStringFrom .plain (char :: done) rest
          | .leading unit => readStringFrom (.pairBackslash unit) done rest
          | .lone => .error .loneSurrogate
    | .pairBackslash leading =>
      if c = '\\' then readStringFrom (.pairLetter leading) done rest
      else .error .unfinishedSurrogate
    | .pairLetter leading =>
      if c = 'u' then
        if hasOctets 4 rest then readStringFrom (.digits (some leading) 3 0) done rest
        else .error .endInString
      else .error .unfinishedSurrogate

/-- Read a kept string after its opening quote. -/
def readString (text : List Char) : Except Error (String × List Char) := do
  let (chars, rest) ← readStringFrom .plain [] text
  return (String.ofList chars, rest)

/-- What the next character of a skipped string belongs to. -/
inductive SkipPhase where
  | plain
  | escape
  /-- Inside a code unit escape that still needs `missing + 1` digits. -/
  | digits (missing : Nat)
  deriving DecidableEq, Repr

/-- Skip the rest of a string. -/
def skipStringFrom (phase : SkipPhase) : List Char → Except Error (List Char)
  | [] => .error .endInString
  | c :: rest =>
    match phase with
    | .plain =>
      if c = '"' then .ok rest
      else if c = '\\' then skipStringFrom .escape rest
      else if c.toNat < 0x20 then .error .controlCharacter
      else skipStringFrom .plain rest
    | .escape =>
      if c = 'u' then
        if hasOctets 4 rest then skipStringFrom (.digits 3) rest else .error .endInString
      else
        match letterEscape? c with
        | some _ => skipStringFrom .plain rest
        | none => .error .invalidEscape
    | .digits missing =>
      match hexValue? c, missing with
      | none, _ => .error .invalidEscape
      | some _, missing + 1 => skipStringFrom (.digits missing) rest
      | some _, 0 => skipStringFrom .plain rest

/-- Skip a string after its opening quote. -/
def skipString (text : List Char) : Except Error (List Char) :=
  skipStringFrom .plain text

end TapeMachine.Json
