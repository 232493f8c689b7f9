import TextColumns.Number.BinaryFormat
import TextColumns.Number.Integer
import TextColumns.Number.Positional

/-!
Reading decimal texts as floating point numbers.  A text has an exact decimal value, and the
result is the number of the format that is nearest to it, of two the one with an even significand.
Only an exponent of six digits or more is not always taken for what it says: it is large enough as
soon as it has passed `exponentBound`, and the digits behind that do not count.
-/

namespace TextColumns.Number

/-- The value of the digits, the most significant one first and not zero, times a power of ten. -/
structure Decimal where
  digits : List Char
  exponent : Int
  deriving DecidableEq, Repr

namespace Decimal

def significand (value : Decimal) : Nat :=
  ofDigits 10 (value.digits.reverse.map fun c => c.toNat - '0'.toNat)

/-- The power of ten just above the value. -/
def order (value : Decimal) : Int :=
  value.exponent + value.digits.length

end Decimal

/-- A text as a floating point number. -/
inductive Reading where
  | infinite
  | notANumber
  | finite (value : Decimal)
  deriving DecidableEq, Repr

def spanDigits (chars : List Char) : List Char × List Char :=
  (chars.takeWhile Char.isDigit, chars.dropWhile Char.isDigit)

def exponentBound : Nat := 65536

/-- The value of an exponent's digits, up to the one with which it reaches the bound. -/
def exponentValue (digits : List Char) : Nat :=
  digits.foldl
    (fun n c => if n < exponentBound then 10 * n + (c.toNat - '0'.toNat) else n) 0

def readExponentDigits? (digits : List Char) : Option Nat :=
  if digits.isEmpty || !digits.all Char.isDigit then none else some (exponentValue digits)

def readExponent? (chars : List Char) : Option Int :=
  match chars with
  | [] => some 0
  | e :: rest =>
    if e == 'e' || e == 'E' then
      match rest with
      | '+' :: digits => (readExponentDigits? digits).map Int.ofNat
      | '-' :: digits => (readExponentDigits? digits).map fun n => -Int.ofNat n
      | digits => (readExponentDigits? digits).map Int.ofNat
    else none

/-- Reads digits with at most one point among them and an exponent behind them. -/
def readDecimal? (chars : List Char) : Option Decimal :=
  let (whole, rest) := spanDigits chars
  let (fraction, rest) :=
    match rest with
    | '.' :: rest => spanDigits rest
    | rest => ([], rest)
  if whole.isEmpty && fraction.isEmpty then none
  else
    (readExponent? rest).map fun exponent =>
      ⟨(whole ++ fraction).dropWhile (· == '0'), exponent - fraction.length⟩

/-- Reads a number without its sign; the names of infinity may be in either case. -/
def readMagnitude? (chars : List Char) : Option Reading :=
  let name := chars.map Char.toLower
  if name == "inf".toList || name == "infinity".toList then some .infinite
  else if name == "nan".toList then some .notANumber
  else (readDecimal? chars).map .finite

def readSigned? (chars : List Char) : Option (Bool × Reading) :=
  match chars with
  | '+' :: rest => (readMagnitude? rest).map fun reading => (false, reading)
  | '-' :: rest => (readMagnitude? rest).map fun reading => (true, reading)
  | chars => (readMagnitude? chars).map fun reading => (false, reading)

/-- The quotient of two numbers to the nearest integer, of two the even one. -/
def divideToEven (a b : Nat) : Nat :=
  let quotient := a / b
  let rest := a % b
  if 2 * rest < b then quotient
  else if b < 2 * rest then quotient + 1
  else quotient + quotient % 2

/-- The fraction `a / b` over `2 ^ q`, as numerator and denominator. -/
def scaleDown (a b : Nat) (q : Int) : Nat × Nat :=
  if q < 0 then (a * twoTo q.natAbs, b) else (a, b * twoTo q.natAbs)

/-- The greatest exponent for which the quotient of `a / b` keeps the precision of the format. -/
def exponentFor (format : BinaryFormat) (a b : Nat) : Int :=
  let estimate : Int := (Nat.log2 a : Int) - Nat.log2 b - (format.precision - 1 : Nat)
  let (x, y) := scaleDown a b estimate
  let exponent := if x / y < format.fractionWeight then estimate - 1 else estimate
  max exponent format.leastExponent

def nearest (format : BinaryFormat) (a b : Nat) : Magnitude :=
  let exponent := exponentFor format a b
  let (x, y) := scaleDown a b exponent
  ⟨divideToEven x y, exponent⟩

/-- Decimal exponents beyond this are too large, or too small, for any format here. -/
def decimalBound : Int := 400

def roundDecimal (format : BinaryFormat) (value : Decimal) : Nat :=
  if value.digits.isEmpty || value.order < -decimalBound then 0
  else if decimalBound < value.order then format.infinity
  else if value.exponent < 0 then
    format.encode (nearest format value.significand (tenTo value.exponent.natAbs))
  else
    format.encode (nearest format (value.significand * tenTo value.exponent.natAbs) 1)

/-- Reads a number of the format, with ASCII blanks around it.  Digits whose value is too large
for the format have no result. -/
def readFloat (format : BinaryFormat) (text : String) : Option Nat :=
  match readSigned? (trimBlanks text.toList) with
  | none => none
  | some (negative, .infinite) => some (format.withSign negative format.infinity)
  | some (negative, .notANumber) => some (format.withSign negative format.notANumber)
  | some (negative, .finite value) =>
    let word := roundDecimal format value
    if word < format.infinity then some (format.withSign negative word) else none

end TextColumns.Number
