import TapeMachine.Decimal.Shortest
import TapeMachine.Json.Error
import TapeMachine.Text.Word

/-!
# Reading JSON numbers

An integer that fits 64 bits stays an integer; every other number becomes a floating-point
number. The digits that fit a 64-bit significand are kept exactly, the others only count towards
the exponent, and the significand is then scaled by one power of ten.
-/

namespace TapeMachine.Json

/-- A number as it is read. -/
inductive Number where
  /-- A natural number below `2^64`. -/
  | natural (value : Nat)
  /-- A negative integer of at least `-2^63`. -/
  | negative (value : Int)
  | float (value : Float)

/-- What a number is called where something else was expected. -/
def Number.found : Number → Found
  | .natural value => .integer value
  | .negative value => .integer value
  | .float value => .float (Decimal.text value)

/-- The first exponent that is too large to be counted. -/
def exponentLimit : Nat := 0x80000000

/-- The value of a decimal digit. -/
def digitValue (c : Char) : Nat :=
  c.toNat - 48

/-- The digits at the start of a text, and what follows. -/
def spanDigits (text : List Char) : List Char × List Char :=
  text.span Char.isDigit

/-- The value of digits, and how many of them were used before the value would have reached
`limit`. -/
def takeDigits (limit : Nat) : (value used : Nat) → List Char → Nat × Nat
  | value, used, [] => (value, used)
  | value, used, digit :: digits =>
    let next := value * 10 + digitValue digit
    if next < limit then takeDigits limit next (used + 1) digits else (value, used)

/-- A power of ten as a floating-point number. -/
def powerOfTen (exponent : Nat) : Float :=
  Float.ofScientific 1 false exponent

/-- Divide by a power of ten, in several divisions where the power is not a number. -/
def scaleDown (value : Float) (exponent : Nat) : Float :=
  if exponent ≤ 308 then value / powerOfTen exponent
  else if value == 0 then value
  else scaleDown (value / powerOfTen 308) (exponent - 308)
termination_by exponent

/-- The floating-point number `significand · 10^exponent`, if it is finite. -/
def scale (significand : Nat) (exponent : Int) : Except Error Float :=
  let value := significand.toUInt64.toFloat
  if exponent < 0 then .ok (scaleDown value (-exponent).toNat)
  else if exponent ≤ 308 then
    let scaled := value * powerOfTen exponent.toNat
    if scaled.isInf then .error .numberOutOfRange else .ok scaled
  else if value == 0 then .ok value
  else .error .numberOutOfRange

/-- A floating-point number with a sign. -/
def signed (negative : Bool) (value : Float) : Number :=
  .float (if negative then -value else value)

/-- Scale a significand and give it a sign. -/
def finishFloat (negative : Bool) (significand : Nat) (exponent : Int) (rest : List Char) :
    Except Error (Number × List Char) := do
  let value ← scale significand exponent
  return (signed negative value, rest)

/-- Read the digits of an exponent after its mark and sign. -/
def readExponentDigits (negative : Bool) (significand : Nat) (exponent : Int)
    (exponentNegative : Bool) (text : List Char) : Except Error (Number × List Char) :=
  let (digits, rest) := spanDigits text
  match digits, text with
  | [], [] => .error .endInValue
  | [], _ :: _ => .error .invalidNumber
  | _ :: _, _ =>
    let (value, used) := takeDigits exponentLimit 0 0 digits
    if used < digits.length then
      if significand ≠ 0 ∧ !exponentNegative then .error .numberOutOfRange
      else .ok (signed negative 0, rest)
    else
      finishFloat negative significand
        (if exponentNegative then exponent - value else exponent + value) rest

/-- Read an exponent after its mark. -/
def readExponent (negative : Bool) (significand : Nat) (exponent : Int) (text : List Char) :
    Except Error (Number × List Char) :=
  match text with
  | '+' :: rest => readExponentDigits negative significand exponent false rest
  | '-' :: rest => readExponentDigits negative significand exponent true rest
  | _ => readExponentDigits negative significand exponent false text

/-- Whether a character marks an exponent. -/
def isExponentMark (c : Char) : Bool :=
  c == 'e' || c == 'E'

/-- Read what follows the digits of a number that is no integer. -/
def readFloatEnd (negative : Bool) (significand : Nat) (exponent : Int) (text : List Char) :
    Except Error (Number × List Char) :=
  match text with
  | mark :: rest =>
    if isExponentMark mark then readExponent negative significand exponent rest
    else finishFloat negative significand exponent text
  | [] => finishFloat negative significand exponent text

/-- Read a fraction after its point. -/
def readFraction (negative : Bool) (significand : Nat) (exponent : Int) (text : List Char) :
    Except Error (Number × List Char) :=
  let (digits, rest) := spanDigits text
  match digits, text with
  | [], [] => .error .endInValue
  | [], _ :: _ => .error .invalidNumber
  | _ :: _, _ =>
    let (significand, used) := takeDigits Text.wordLimit significand 0 digits
    readFloatEnd negative significand (exponent - used) rest

/-- The greatest distance of a negative integer from zero. -/
def negativeLimit : Nat := 0x8000000000000000

/-- The number of an integer text. -/
def integerNumber (negative : Bool) (significand : Nat) : Number :=
  if !negative then .natural significand
  else if 0 < significand ∧ significand ≤ negativeLimit then .negative (-(significand : Int))
  else .float (-significand.toUInt64.toFloat)

/-- Read what follows the digits of an integer of which `exponent` digits did not fit. -/
def readNumberEnd (negative : Bool) (significand exponent : Nat) (text : List Char) :
    Except Error (Number × List Char) :=
  match text with
  | '.' :: rest => readFraction negative significand exponent rest
  | _ =>
    if exponent = 0 ∧ !(text.head?.any isExponentMark) then
      .ok (integerNumber negative significand, text)
    else readFloatEnd negative significand exponent text

/-- Read a number after its sign. -/
def readUnsigned (negative : Bool) (text : List Char) : Except Error (Number × List Char) :=
  match text with
  | [] => .error .endInValue
  | '0' :: rest =>
    if rest.head?.any Char.isDigit then .error .invalidNumber
    else readNumberEnd negative 0 0 rest
  | c :: _ =>
    if c.isDigit then
      let (digits, rest) := spanDigits text
      let (significand, used) := takeDigits Text.wordLimit 0 0 digits
      readNumberEnd negative significand (digits.length - used) rest
    else .error .invalidNumber

/-- Read a number that starts with a digit or a minus sign. -/
def readNumber (text : List Char) : Except Error (Number × List Char) :=
  match text with
  | '-' :: rest => readUnsigned true rest
  | _ => readUnsigned false text

/-- Skip an exponent after its mark. -/
def skipExponent (text : List Char) : Except Error (List Char) :=
  let digits :=
    match text with
    | '+' :: rest => rest
    | '-' :: rest => rest
    | _ => text
  if digits.head?.any Char.isDigit then .ok (digits.dropWhile Char.isDigit)
  else .error .invalidNumber

/-- Skip what follows the digits of a number. -/
def skipNumberEnd (text : List Char) : Except Error (List Char) :=
  match text with
  | '.' :: rest =>
    if rest.head?.any Char.isDigit then
      match rest.dropWhile Char.isDigit with
      | mark :: rest => if isExponentMark mark then skipExponent rest else .ok (mark :: rest)
      | [] => .ok []
    else .error .invalidNumber
  | mark :: rest => if isExponentMark mark then skipExponent rest else .ok text
  | [] => .ok []

/-- Skip a number after its sign. -/
def skipUnsigned (text : List Char) : Except Error (List Char) :=
  match text with
  | [] => .error .invalidNumber
  | '0' :: rest =>
    if rest.head?.any Char.isDigit then .error .invalidNumber else skipNumberEnd rest
  | c :: rest =>
    if c.isDigit then skipNumberEnd (rest.dropWhile Char.isDigit) else .error .invalidNumber

/-- Skip a number that starts with a digit or a minus sign. -/
def skipNumber (text : List Char) : Except Error (List Char) :=
  match text with
  | '-' :: rest => skipUnsigned rest
  | _ => skipUnsigned text

end TapeMachine.Json
