/-!
# Numbers of 64 bits

The value of a decimal numeral, provided that it fits 64 bits.
-/

namespace TapeMachine.Text

/-- The first number that does not fit 64 bits. -/
def wordLimit : Nat := 0x10000000000000000

/-- Append a digit to a number, unless the result does not fit. -/
def appendDigit (value : Option Nat) (digit : Char) : Option Nat :=
  value.bind fun value =>
    let next := value * 10 + (digit.toNat - 48)
    if next < wordLimit then some next else none

/-- The value of digits, if it fits. -/
def wordOfDigits? (digits : List Char) : Option Nat :=
  digits.foldl appendDigit (some 0)

/-- The value of a numeral with an optional plus sign and at least one digit, if it fits. -/
def wordOf? (numeral : String) : Option Nat :=
  let digits :=
    match numeral.toList with
    | '+' :: digits => digits
    | digits => digits
  if digits.isEmpty || !digits.all Char.isDigit then none else wordOfDigits? digits

end TapeMachine.Text
