/-!
# Shortest decimal text of a binary fraction

A positive binary floating-point number stands for all reals that round to it. Its shortest
decimal is the decimal with the fewest digits among them; of several, the nearest to the number
itself, and of two equally near ones the one with the even last digit. The search is exact:
everything is compared as a quotient of natural numbers.
-/

namespace TapeMachine.Decimal

/-- A quotient of natural numbers. -/
structure Ratio where
  num : Nat
  den : Nat
  deriving Repr

/-- The quotient `num · 2^exponent`. -/
def Ratio.ofBinary (num : Nat) (exponent : Int) : Ratio :=
  if 0 ≤ exponent then ⟨num * Nat.pow 2 exponent.toNat, 1⟩
  else ⟨num, Nat.pow 2 (-exponent).toNat⟩

/-- The quotient `num · 10^exponent`. -/
def Ratio.ofDecimal (num : Nat) (exponent : Int) : Ratio :=
  if 0 ≤ exponent then ⟨num * Nat.pow 10 exponent.toNat, 1⟩
  else ⟨num, Nat.pow 10 (-exponent).toNat⟩

/-- Whether one quotient is smaller than another. -/
def Ratio.lt (a b : Ratio) : Bool :=
  a.num * b.den < b.num * a.den

/-- The distance between two quotients. -/
def Ratio.distance (a b : Ratio) : Ratio :=
  let x := a.num * b.den
  let y := b.num * a.den
  ⟨if x < y then y - x else x - y, a.den * b.den⟩

/-- The reals that round to a binary floating-point number. -/
structure RoundingInterval where
  value : Ratio
  low : Ratio
  high : Ratio
  /-- Whether the ends belong to the interval. -/
  closed : Bool

/-- The least mantissa of a number that is not subnormal. -/
def leastMantissa : Nat := 0x10000000000000

/-- The interval of `mantissa · 2^exponent`. Below the least mantissa of a range of exponents the
neighbours lie twice as close, unless there is no smaller range. -/
def RoundingInterval.of (mantissa : Nat) (exponent : Int) : RoundingInterval where
  value := .ofBinary (4 * mantissa) (exponent - 2)
  low :=
    let narrow := mantissa == leastMantissa && -1074 < exponent
    .ofBinary (if narrow then 4 * mantissa - 1 else 4 * mantissa - 2) (exponent - 2)
  high := .ofBinary (4 * mantissa + 2) (exponent - 2)
  closed := mantissa % 2 == 0

/-- Whether a quotient rounds to the number of an interval. -/
def RoundingInterval.contains (interval : RoundingInterval) (ratio : Ratio) : Bool :=
  if interval.closed then !ratio.lt interval.low && !interval.high.lt ratio
  else interval.low.lt ratio && ratio.lt interval.high

/-- The least decimal exponent such that the number is below its next power of ten, searched upwards
from `exponent`. -/
def leadingExponent (value : Ratio) : (fuel : Nat) → (exponent : Int) → Int
  | 0, exponent => exponent
  | fuel + 1, exponent =>
    if value.lt (.ofDecimal 1 (exponent + 1)) then exponent
    else leadingExponent value fuel (exponent + 1)

/-- A decimal `digits · 10^exponent`. -/
structure Scaled where
  digits : Nat
  exponent : Int
  deriving DecidableEq, Repr

/-- The decimal on the grid of `10^exponent` that rounds to the number of an interval and is
nearest to it, if there is one. Of two equally near ones it is the even multiple. -/
def onGrid? (interval : RoundingInterval) (exponent : Int) : Option Scaled :=
  let unit := Ratio.ofDecimal 1 exponent
  let below := interval.value.num * unit.den / (interval.value.den * unit.num)
  let lower := Ratio.ofDecimal below exponent
  let upper := Ratio.ofDecimal (below + 1) exponent
  match interval.contains lower, interval.contains upper with
  | true, true =>
    let toLower := lower.distance interval.value
    let toUpper := upper.distance interval.value
    if toUpper.lt toLower || (!toLower.lt toUpper && below % 2 == 1)
    then some ⟨below + 1, exponent⟩ else some ⟨below, exponent⟩
  | true, false => some ⟨below, exponent⟩
  | false, true => some ⟨below + 1, exponent⟩
  | false, false => none

/-- Search the grids of `10^exponent` and finer ones. -/
def searchGrids (interval : RoundingInterval) : (fuel : Nat) → (exponent : Int) → Scaled
  | 0, exponent => ⟨0, exponent⟩
  | fuel + 1, exponent =>
    match onGrid? interval exponent with
    | some decimal => decimal
    | none => searchGrids interval fuel (exponent - 1)

/-- The shortest decimal of `mantissa · 2^exponent`. Seventeen digits always suffice. -/
def shortest (mantissa : Nat) (exponent : Int) : Scaled :=
  let interval := RoundingInterval.of mantissa exponent
  searchGrids interval 18 (leadingExponent interval.value 700 (-330))

/-- Mantissa and exponent of the positive part of a floating-point number. -/
def decode (value : Float) : Nat × Int :=
  let bits := value.toBits.toNat
  let fraction : Nat := bits % leastMantissa
  let field : Nat := bits / leastMantissa % 0x800
  if field = 0 then (fraction, -1074) else (fraction + leastMantissa, (field : Int) - 1075)

/-- Whether the sign bit is set. -/
def isNegative (value : Float) : Bool :=
  value.toBits.toNat / 0x8000000000000000 == 1

/-- How a decimal is laid out as text. -/
structure Format where
  /-- The least leading exponent that is written positionally. -/
  leastPositional : Int
  /-- The greatest leading exponent that is written positionally. -/
  greatestPositional : Int

/-- The digits of a number without the zeros at its end. -/
def significantDigits (number : Nat) : List Char :=
  ((Nat.toDigits 10 number).reverse.dropWhile (· == '0')).reverse

/-- A written exponent with its sign. -/
def exponentText (exponent : Int) : List Char :=
  (if exponent < 0 then '-' else '+') :: Nat.toDigits 10 exponent.natAbs

/-- The text of a positive decimal. -/
def Format.text (format : Format) (decimal : Scaled) : List Char :=
  let digits := significantDigits decimal.digits
  let leading : Int := (Nat.toDigits 10 decimal.digits).length - 1 + decimal.exponent
  if format.leastPositional ≤ leading ∧ leading ≤ format.greatestPositional then
    if leading < 0 then
      ['0', '.'] ++ List.replicate ((-leading).toNat - 1) '0' ++ digits
    else
      let whole := leading.toNat + 1
      let fraction := digits.drop whole
      digits.take whole ++ List.replicate (whole - digits.length) '0' ++ '.' ::
        (if fraction.isEmpty then ['0'] else fraction)
  else
    let fraction := digits.drop 1
    digits.take 1 ++ (if fraction.isEmpty then [] else '.' :: fraction) ++
      'e' :: exponentText leading

/-- Numbers from a hundred-thousandth up to sixteen digits are written positionally with at
least one digit after the point, all others with a signed exponent. -/
def messageFormat : Format where
  leastPositional := -5
  greatestPositional := 15

/-- The shortest text of a finite floating-point number. -/
def text (value : Float) : String :=
  let (mantissa, exponent) := decode value
  let sign := if isNegative value then ['-'] else []
  String.ofList (sign ++
    if mantissa = 0 then ['0', '.', '0'] else messageFormat.text (shortest mantissa exponent))

end TapeMachine.Decimal
