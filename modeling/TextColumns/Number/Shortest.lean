import TextColumns.Number.BinaryFormat
import TextColumns.Number.Integer

/-!
The shortest decimal text that reads back as a given number.  Among the powers of ten, the
greatest is taken that has a multiple in the interval of values which round to the number; of two
such multiples the nearer one, and of two equally near the even one.
-/

namespace TextColumns.Number

/-- A number and the interval that rounds to it, all times a common denominator. -/
structure Interval where
  low : Nat
  value : Nat
  high : Nat
  /-- Whether the ends belong to the interval. -/
  closed : Bool
  denominator : Nat

/-- The values that round to a number of the format.  The interval is narrower below a power of
two, where the numbers lie closer together. -/
def Interval.of (format : BinaryFormat) (size : Magnitude) : Interval :=
  let m := size.significand
  let narrow := m == format.fractionWeight && format.leastExponent < size.exponent
  let q := size.exponent - 2
  let factor := if q < 0 then 1 else twoTo q.natAbs
  ⟨(if narrow then 4 * m - 1 else 4 * m - 2) * factor, 4 * m * factor, (4 * m + 2) * factor,
    m % 2 == 0, if q < 0 then twoTo q.natAbs else 1⟩

def Interval.contains (interval : Interval) (x : Nat) : Bool :=
  if interval.closed then interval.low ≤ x && x ≤ interval.high
  else interval.low < x && x < interval.high

/-- The multiple of a unit that is in the interval and nearest to its number. -/
def Interval.multiple? (interval : Interval) (unit : Nat) : Option Nat :=
  let below := interval.value / unit
  let above := below + 1
  let hitBelow := below != 0 && interval.contains (below * unit)
  let hitAbove := interval.contains (above * unit)
  match hitBelow, hitAbove with
  | true, true =>
    let toBelow := interval.value - below * unit
    let toAbove := above * unit - interval.value
    if toBelow < toAbove then some below
    else if toAbove < toBelow then some above
    else some (below + below % 2)
  | true, false => some below
  | false, true => some above
  | false, false => none

/-- The digits of a number and the power of ten that they count. -/
structure Digits where
  value : Nat
  exponent : Int
  deriving DecidableEq, Repr

/-- Tries the powers of ten from `exponent` down, as many as `steps`. -/
def Interval.shortestFrom (interval : Interval) (exponent : Int) : (steps : Nat) → Digits
  | 0 => ⟨0, 0⟩
  | steps + 1 =>
    let scale := tenTo exponent.natAbs
    let found :=
      if exponent < 0 then
        { interval with
          low := interval.low * scale
          value := interval.value * scale
          high := interval.high * scale }.multiple? interval.denominator
      else
        interval.multiple? (scale * interval.denominator)
    match found with
    | some value => ⟨value, exponent⟩
    | none => interval.shortestFrom (exponent - 1) steps

/-- No number here reaches this power of ten. -/
def greatestPower : Int := 310

/-- Enough powers of ten to reach the last digit of any number here. -/
def powerCount : Nat := 1500

def shortest (format : BinaryFormat) (size : Magnitude) : Digits :=
  (Interval.of format size).shortestFrom greatestPower powerCount

/-- Which numbers are written without an exponent, by the place of their point. -/
structure Style where
  leastPoint : Int
  greatestPoint : Int

/-- Doubles have an exponent from 1e16 on and below 1e-5. -/
def Style.double : Style :=
  ⟨-4, 16⟩

/-- Singles have an exponent from 1e13 on and below 1e-6. -/
def Style.single : Style :=
  ⟨-5, 13⟩

def Style.write (style : Style) (digits : Digits) : List Char :=
  let text := decimalDigits digits.value
  let point := digits.exponent + text.length
  if 0 < point && point ≤ style.greatestPoint then
    let whole := point.toNat
    if text.length ≤ whole then
      text ++ List.replicate (whole - text.length) '0' ++ ".0".toList
    else
      text.take whole ++ '.' :: text.drop whole
  else if style.leastPoint ≤ point && point ≤ 0 then
    "0.".toList ++ List.replicate point.natAbs '0' ++ text
  else
    let exponent := (writeInteger (point - 1)).toList
    match text with
    | [] => []
    | [digit] => digit :: 'e' :: exponent
    | digit :: rest => digit :: '.' :: rest ++ 'e' :: exponent

/-- The text of a finite number; none for infinity and what is not a number. -/
def writeFloat (format : BinaryFormat) (style : Style) (word : Nat) : Option String :=
  if format.isFinite word then
    let size := format.magnitude word
    let text := if size.significand = 0 then "0.0".toList
      else style.write (shortest format size)
    some (String.ofList (if format.isNegative word then '-' :: text else text))
  else
    none

end TextColumns.Number
